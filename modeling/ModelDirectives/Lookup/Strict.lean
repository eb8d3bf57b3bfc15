import ModelDirectives.Lookup

namespace ModelDirectives

/-- Why a parameter could not be read as asked. -/
inductive LookupError where
  | annotationMissing (name : String)
  | parameterMissing (name parameter : String)
  | untyped (name parameter : String)
  | mismatch (name parameter : String) (expected found : Kind)
  deriving DecidableEq, Repr

namespace LookupError

/-- Whether the parameter was simply not used, as opposed to used wrongly. -/
def isAbsence : LookupError → Bool
  | .mismatch .. => false
  | _ => true

def message : LookupError → String
  | .annotationMissing a => "annotation `" ++ a ++ "` is not present"
  | .parameterMissing a p => "annotation `" ++ a ++ "` has no parameter `" ++ p ++ "`"
  | .untyped a p => "parameter `" ++ p ++ "` of annotation `" ++ a ++ "` has no value"
  | .mismatch a p expected found =>
    "parameter `" ++ p ++ "` of annotation `" ++ a ++ "` is a " ++ found.label ++
      ", expected " ++ expected.label

end LookupError

namespace Lookup.Strict

/-- The parameter in the first annotation of a name. -/
def parameter {α : Type} [Annotated α] (concept : α) (name parameter : String) :
    Except LookupError Parameter :=
  match first? concept name with
  | none => .error (.annotationMissing name)
  | some a =>
    match a.parameter? parameter with
    | none => .error (.parameterMissing name parameter)
    | some p => .ok p

/-- The value of the parameter, whatever its kind. -/
def value {α : Type} [Annotated α] (concept : α) (name parameter : String) :
    Except LookupError Value := do
  match (← Strict.parameter concept name parameter).value with
  | none => .error (.untyped name parameter)
  | some v => .ok v

/-- The value of the parameter, which has to be a string. -/
def string {α : Type} [Annotated α] (concept : α) (name parameter : String) :
    Except LookupError String := do
  match ← value concept name parameter with
  | .string text => .ok text
  | .bool _ => .error (.mismatch name parameter .string .bool)

/-- The value of the parameter, which has to be a boolean. -/
def bool {α : Type} [Annotated α] (concept : α) (name parameter : String) :
    Except LookupError Bool := do
  match ← value concept name parameter with
  | .bool flag => .ok flag
  | .string _ => .error (.mismatch name parameter .bool .string)

/-- The tokens of the parameter, which has to be a string. -/
def context {α : Type} [Annotated α] (concept : α) (name parameter : String) :
    Except LookupError (List String) :=
  (string concept name parameter).map Context.split

end Lookup.Strict

end ModelDirectives
