namespace ModelDirectives

/-- What the author wrote as the value of a parameter. -/
inductive Value where
  | string (text : String)
  | bool (flag : Bool)
  deriving DecidableEq, Repr

/-- What sort of value a parameter has; a parameter written without one is untyped. -/
inductive Kind where
  | string
  | bool
  | untyped
  deriving DecidableEq, Repr

namespace Kind

def label : Kind → String
  | .string => "string"
  | .bool => "bool"
  | .untyped => "untyped"

end Kind

namespace Value

def kind : Value → Kind
  | .string _ => .string
  | .bool _ => .bool

def string? : Value → Option String
  | .string text => some text
  | .bool _ => none

def bool? : Value → Option Bool
  | .string _ => none
  | .bool flag => some flag

/-- The value as text: a string as it stands, a boolean in words. -/
def text : Value → String
  | .string text => text
  | .bool true => "true"
  | .bool false => "false"

end Value

/-- A parameter; it has no value when the author wrote none. -/
structure Parameter where
  name : String
  value : Option Value
  deriving DecidableEq, Repr

namespace Parameter

def kind (p : Parameter) : Kind :=
  match p.value with
  | some value => value.kind
  | none => .untyped

/-- Writes a parameter into a list: over the one of the same name, or at the end. -/
def write (p : Parameter) : List Parameter → List Parameter
  | [] => [p]
  | q :: rest => if q.name = p.name then p :: rest else q :: write p rest

end Parameter

/-- A name and the parameters written with it, in the order in which each was first written and each
under its own name. -/
structure Annotation where
  name : String
  parameters : List Parameter
  deriving DecidableEq, Repr

namespace Annotation

/-- The annotation of a name with nothing written in it. -/
def named (name : String) : Annotation :=
  ⟨name, []⟩

/-- Writes a parameter; one of the same name keeps its position and loses its value. -/
def set (a : Annotation) (p : Parameter) : Annotation :=
  { a with parameters := p.write a.parameters }

def put (a : Annotation) (name : String) (value : Value) : Annotation :=
  a.set ⟨name, some value⟩

def putUntyped (a : Annotation) (name : String) : Annotation :=
  a.set ⟨name, none⟩

/-- The annotation with the parameters of a list written one after the other. -/
def ofParameters (name : String) (parameters : List Parameter) : Annotation :=
  parameters.foldl set (named name)

def parameter? (a : Annotation) (name : String) : Option Parameter :=
  a.parameters.find? (·.name = name)

/-- The value of a parameter, if it was written with one. -/
def find? (a : Annotation) (name : String) : Option Value :=
  (a.parameter? name).bind (·.value)

end Annotation

end ModelDirectives
