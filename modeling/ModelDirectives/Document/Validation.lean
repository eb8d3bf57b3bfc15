import ModelDirectives.Document
import ModelDirectives.Document.Check
import ModelDirectives.Text.Blank

namespace ModelDirectives

def checkName (subject : Subject) (name : String) : Check Unit :=
  Check.require (Identifier.isValid name) (.invalidName subject name)

/-- The value of a parameter, which is a string, a boolean or null; null stands for no value. -/
def parameterValue? : Json → Option (Option Value)
  | .string text => some (some (.string text))
  | .bool flag => some (some (.bool flag))
  | .null => some none
  | _ => none

def checkParameter (name owner : String) (member : String × Json) : Check Parameter := do
  checkName (.parameterOf name owner) member.1
  match parameterValue? member.2 with
  | some value => Check.accept ⟨member.1, value⟩
  | none => Check.refuse (.unsupportedValue member.1 name owner member.2)

namespace AnnotationEntry

/-- An annotation on `owner`; a notice is due when it is repeated. -/
def check (owner : String) (repeated : Bool) (e : AnnotationEntry) : Check Annotation := do
  checkName (.annotationOn owner) e.name
  if repeated then Check.notice (.annotationRepeated owner e.name)
  let parameters ← Check.each (checkParameter e.name owner) e.parameters
  Check.accept <| Annotation.ofParameters e.name parameters

/-- The annotations on `owner`, behind earlier ones of the given names. -/
def checkAll (owner : String) : List String → List AnnotationEntry → Check (List Annotation)
  | _, [] => Check.accept []
  | earlier, e :: rest => do
    let a ← e.check owner (earlier.contains e.name)
    let as ← checkAll owner (e.name :: earlier) rest
    Check.accept (a :: as)

end AnnotationEntry

/-- Members of one sort of the type `owner`, none of which may bear a name that is taken. -/
def checkMembers {ε μ : Type} (subject : Subject) (owner : String) (nameOf : ε → String)
    (build : ε → Check μ) : List String → List ε → Check (List μ)
  | _, [] => Check.accept []
  | taken, e :: rest => do
    checkName subject (nameOf e)
    Check.require (!taken.contains (nameOf e)) (.memberRepeated (nameOf e) owner)
    let m ← build e
    let ms ← checkMembers subject owner nameOf build (nameOf e :: taken) rest
    Check.accept (m :: ms)

/-- An attribute of the type `owner`, apart from its name. -/
def AttributeEntry.check (owner : String) (e : AttributeEntry) : Check Attribute := do
  Check.require (!Text.blank e.typeName) (.attributeUntyped e.name owner)
  let annotations ← AnnotationEntry.checkAll (memberPath owner e.name) [] e.annotations
  Check.accept ⟨e.name, e.typeName, annotations⟩

/-- A method of the type `owner`, apart from its name. -/
def MemberEntry.checkMethod (owner : String) (e : MemberEntry) : Check Method := do
  let annotations ← AnnotationEntry.checkAll (memberPath owner e.name) [] e.annotations
  Check.accept ⟨e.name, annotations⟩

/-- An enum value of the type `owner`, apart from its name. -/
def MemberEntry.checkValue (owner : String) (e : MemberEntry) : Check EnumValue := do
  let annotations ← AnnotationEntry.checkAll (memberPath owner e.name) [] e.annotations
  Check.accept ⟨e.name, annotations⟩

namespace TypeEntry

/-- A type, apart from its name. Attributes, methods and values share their names, and only an enum
may have values. -/
def check (t : TypeEntry) : Check TypeDef := do
  let attributeNames := t.attributes.map (·.name)
  let methodNames := t.methods.map (·.name)
  let annotations ← AnnotationEntry.checkAll t.name [] t.annotations
  let attributes ← checkMembers .attribute t.name (·.name) (AttributeEntry.check t.name)
    [] t.attributes
  let methods ← checkMembers .method t.name (·.name) (MemberEntry.checkMethod t.name)
    attributeNames t.methods
  Check.require (t.values.isEmpty || t.kind = .enum) (.valuesOutsideEnum t.name)
  let values ← checkMembers .enumValue t.name (·.name) (MemberEntry.checkValue t.name)
    (methodNames ++ attributeNames) t.values
  Check.accept ⟨t.name, t.kind, annotations, attributes, methods, values⟩

/-- Types behind earlier ones of the given names. -/
def checkAll : List String → List TypeEntry → Check (List TypeDef)
  | _, [] => Check.accept []
  | earlier, t :: rest => do
    checkName .type t.name
    Check.require (!earlier.contains t.name) (.typeRepeated t.name)
    let d ← t.check
    let ds ← checkAll (t.name :: earlier) rest
    Check.accept (d :: ds)

end TypeEntry

/-- The model that a document describes, which has at least one type, if names, types and values are
as they should be. The first violation in the order of the document decides. -/
def Document.check (d : Document) : Check Model := do
  let types ← TypeEntry.checkAll [] d.types
  Check.require (!types.isEmpty) .noTypes
  Check.notice (.loaded types.length)
  Check.accept ⟨types⟩

end ModelDirectives
