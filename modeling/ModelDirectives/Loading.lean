import ModelDirectives.Document.Reader
import ModelDirectives.Document.Validation
import ModelDirectives.Files.Fault

namespace ModelDirectives

inductive LoadFault where
  | unreadable (fault : FileFault)
  | unparsed (fault : Json.Fault)
  | invalid (violation : Violation)
  deriving Repr

namespace LoadFault

/-- What could not be done to the file at a path. -/
def summary (path : String) : LoadFault → String
  | .unreadable _ => "read model file " ++ path
  | .unparsed _ => "parse model file " ++ path
  | .invalid _ => "invalid model file " ++ path

def cause : LoadFault → String
  | .unreadable fault => fault.message
  | .unparsed fault => fault.message
  | .invalid violation => violation.message

end LoadFault

/-- A model or why there is none, and the notices given before. -/
structure Loading where
  notices : List Notice
  outcome : Except LoadFault Model

namespace Loading

def ofText (s : String) : Loading :=
  match Document.read s with
  | .error fault => ⟨[], .error (.unparsed fault)⟩
  | .ok document =>
    let check := document.check
    match check.verdict with
    | .error violation => ⟨check.notices, .error (.invalid violation)⟩
    | .ok model => ⟨check.notices, .ok model⟩

/-- The model in a file, given what reading the file brought. -/
def ofFile : Except FileFault ByteArray → Loading
  | .error fault => ⟨[], .error (.unreadable fault)⟩
  | .ok bytes =>
    match String.fromUTF8? bytes with
    | none => ⟨[], .error (.unreadable .notText)⟩
    | some s => ofText s

end Loading

end ModelDirectives
