import ModelDirectives.Annotation

namespace ModelDirectives

inductive TypeKind where
  | classType
  | struct
  | enum
  | list
  | scalar
  deriving DecidableEq, Repr

namespace TypeKind

def label : TypeKind → String
  | .classType => "class"
  | .struct => "struct"
  | .enum => "enum"
  | .list => "list"
  | .scalar => "scalar"

def all : List TypeKind :=
  [.classType, .struct, .enum, .list, .scalar]

def ofLabel? (label : String) : Option TypeKind :=
  all.find? (·.label = label)

end TypeKind

structure Attribute where
  name : String
  typeName : String
  annotations : List Annotation
  deriving DecidableEq, Repr

structure Method where
  name : String
  annotations : List Annotation
  deriving DecidableEq, Repr

structure EnumValue where
  name : String
  annotations : List Annotation
  deriving DecidableEq, Repr

structure TypeDef where
  name : String
  kind : TypeKind
  annotations : List Annotation
  attributes : List Attribute
  methods : List Method
  values : List EnumValue
  deriving DecidableEq, Repr

structure Model where
  types : List TypeDef
  deriving DecidableEq, Repr

class Annotated (α : Type) where
  annotationsOf : α → List Annotation

export Annotated (annotationsOf)

instance : Annotated (List Annotation) := ⟨id⟩
instance : Annotated Attribute := ⟨Attribute.annotations⟩
instance : Annotated Method := ⟨Method.annotations⟩
instance : Annotated EnumValue := ⟨EnumValue.annotations⟩
instance : Annotated TypeDef := ⟨TypeDef.annotations⟩

def TypeDef.attribute? (t : TypeDef) (name : String) : Option Attribute :=
  t.attributes.find? (·.name = name)

def Model.type? (m : Model) (name : String) : Option TypeDef :=
  m.types.find? (·.name = name)

inductive ConceptKind where
  | type
  | attribute
  | method
  | value
  deriving DecidableEq, Repr

def ConceptKind.label : ConceptKind → String
  | .type => "type"
  | .attribute => "attribute"
  | .method => "method"
  | .value => "value"

/-- The path of a member: the name of its type, a dot, its own name. -/
def memberPath (owner name : String) : String :=
  owner ++ "." ++ name

/-- A type or a member of one, with the path that leads to it. -/
structure Concept where
  path : String
  kind : ConceptKind
  annotations : List Annotation
  deriving DecidableEq, Repr

instance : Annotated Concept := ⟨Concept.annotations⟩

/-- A type, then its attributes, methods and values. -/
def TypeDef.concepts (t : TypeDef) : List Concept :=
  ⟨t.name, .type, t.annotations⟩ ::
    (t.attributes.map (fun a => ⟨memberPath t.name a.name, .attribute, a.annotations⟩) ++
      t.methods.map (fun m => ⟨memberPath t.name m.name, .method, m.annotations⟩) ++
      t.values.map (fun v => ⟨memberPath t.name v.name, .value, v.annotations⟩))

/-- The concepts of all types, in the order of the model. -/
def Model.concepts (m : Model) : List Concept :=
  m.types.flatMap TypeDef.concepts

end ModelDirectives
