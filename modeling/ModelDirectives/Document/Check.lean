import ModelDirectives.Identifier
import ModelDirectives.Json.Compact
import ModelDirectives.Notice

namespace ModelDirectives

inductive Subject where
  | type
  | annotationOn (owner : String)
  | parameterOf (name owner : String)
  | attribute
  | method
  | enumValue
  deriving DecidableEq, Repr

def Subject.text : Subject → String
  | .type => "type"
  | .annotationOn owner => "annotation on " ++ owner
  | .parameterOf name owner => "parameter of @" ++ name ++ " on " ++ owner
  | .attribute => "attribute"
  | .method => "method"
  | .enumValue => "enum value"

/-- What a document must not hold. -/
inductive Violation where
  | invalidName (subject : Subject) (name : String)
  | typeRepeated (name : String)
  | memberRepeated (name owner : String)
  | attributeUntyped (name owner : String)
  | unsupportedValue (parameter name owner : String) (value : Json)
  | valuesOutsideEnum (owner : String)
  | noTypes
  deriving Repr

def Violation.message : Violation → String
  | .invalidName subject name => Identifier.complaint subject.text name
  | .typeRepeated name => "duplicate type name in model: " ++ name
  | .memberRepeated name owner => "duplicate member " ++ name ++ " in type " ++ owner
  | .attributeUntyped name owner => "attribute " ++ owner ++ "." ++ name ++ " has no type"
  | .unsupportedValue parameter name owner value =>
    "parameter " ++ parameter ++ " of @" ++ name ++ " on " ++ owner ++
      " has unsupported value " ++ value.compactText
  | .valuesOutsideEnum owner => "type " ++ owner ++ " declares enum values but is not an enum"
  | .noTypes => "model contained no types"

/-- A verdict, and the notices given on the way to it. -/
structure Check (α : Type) where
  notices : List Notice
  verdict : Except Violation α

namespace Check

variable {α β : Type}

def accept (x : α) : Check α :=
  ⟨[], .ok x⟩

def refuse (v : Violation) : Check α :=
  ⟨[], .error v⟩

/-- Goes on with what has been accepted; a violation ends the check. -/
def andThen (c : Check α) (next : α → Check β) : Check β :=
  match c.verdict with
  | .ok x => ⟨c.notices ++ (next x).notices, (next x).verdict⟩
  | .error v => ⟨c.notices, .error v⟩

instance : Monad Check where
  pure := accept
  bind := andThen

def notice (n : Notice) : Check Unit :=
  ⟨[n], .ok ()⟩

def require (holds : Bool) (v : Violation) : Check Unit :=
  if holds then accept () else refuse v

def each (check : α → Check β) : List α → Check (List β)
  | [] => accept []
  | x :: xs => do
    let y ← check x
    let ys ← each check xs
    accept (y :: ys)

end Check

end ModelDirectives
