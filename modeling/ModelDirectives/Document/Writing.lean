import ModelDirectives.Document
import ModelDirectives.Json.Compact

namespace ModelDirectives

/-- What a document says of a parameter; null says that it has no value. -/
def Parameter.entry (p : Parameter) : String × Json :=
  match p.value with
  | none => (p.name, .null)
  | some (.string text) => (p.name, .string text)
  | some (.bool flag) => (p.name, .bool flag)

def Annotation.entry (a : Annotation) : AnnotationEntry :=
  ⟨a.name, a.parameters.map Parameter.entry⟩

def Attribute.entry (a : Attribute) : AttributeEntry :=
  ⟨a.name, a.typeName, a.annotations.map Annotation.entry⟩

def Method.entry (m : Method) : MemberEntry :=
  ⟨m.name, m.annotations.map Annotation.entry⟩

def EnumValue.entry (v : EnumValue) : MemberEntry :=
  ⟨v.name, v.annotations.map Annotation.entry⟩

def TypeDef.entry (t : TypeDef) : TypeEntry where
  name := t.name
  kind := t.kind
  annotations := t.annotations.map Annotation.entry
  attributes := t.attributes.map Attribute.entry
  methods := t.methods.map Method.entry
  values := t.values.map EnumValue.entry

def Model.document (m : Model) : Document :=
  ⟨m.types.map TypeDef.entry⟩

def AnnotationEntry.toJson (e : AnnotationEntry) : Json :=
  .object [("name", .string e.name), ("parameters", .object e.parameters)]

def AttributeEntry.toJson (e : AttributeEntry) : Json :=
  .object [("name", .string e.name), ("type", .string e.typeName),
    ("annotations", .array (e.annotations.map AnnotationEntry.toJson))]

def MemberEntry.toJson (e : MemberEntry) : Json :=
  .object [("name", .string e.name),
    ("annotations", .array (e.annotations.map AnnotationEntry.toJson))]

def TypeEntry.toJson (e : TypeEntry) : Json :=
  .object [("name", .string e.name), ("kind", .string e.kind.label),
    ("annotations", .array (e.annotations.map AnnotationEntry.toJson)),
    ("attributes", .array (e.attributes.map AttributeEntry.toJson)),
    ("methods", .array (e.methods.map MemberEntry.toJson)),
    ("values", .array (e.values.map MemberEntry.toJson))]

def Document.toJson (d : Document) : Json :=
  .object [("types", .array (d.types.map TypeEntry.toJson))]

def Document.text (d : Document) : String :=
  d.toJson.compactText

end ModelDirectives
