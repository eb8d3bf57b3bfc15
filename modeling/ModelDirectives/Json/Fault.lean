import ModelDirectives.Decimal
import ModelDirectives.Json.Compact
import ModelDirectives.Text.Quoted

namespace ModelDirectives.Json

/-- What sort of fault it is: the text ends too early, it is not JSON, or it is JSON of another
shape than the one asked for. -/
inductive Category where
  | unfinished
  | malformed
  | misshapen
  deriving DecidableEq, Repr

/-- What stands where something of another type was asked for. -/
inductive Found where
  | null
  | bool (flag : Bool)
  | number (value : Number)
  | string (text : String)
  | sequence
  | map
  deriving Repr

def Found.text : Found → String
  | .null => "null"
  | .bool flag => "boolean `" ++ String.ofList (word flag) ++ "`"
  | .number (.int n) => "integer `" ++ String.ofList (Number.int n).text ++ "`"
  | .number (.real x) => "floating point `" ++ String.ofList (Number.real x).text ++ "`"
  | .string text => "string " ++ Text.quoted text
  | .sequence => "sequence"
  | .map => "map"

/-- Why a text is not the JSON document that was asked for. -/
inductive Fault where
  | endInList
  | endInObject
  | endInString
  | endInValue
  | colonExpected
  | commaOrBracketExpected
  | commaOrBraceExpected
  | wordExpected
  | valueExpected
  | invalidEscape
  | invalidNumber
  | numberOutOfRange
  | controlCharacter
  | keyNotString
  | loneSurrogate
  | surrogateCutOff
  | trailingComma
  | trailingCharacters
  | tooDeep
  | wrongType (found : Found) (expected : String)
  | wrongLength (length : Nat) (expected : String)
  | unknownVariant (name : String) (known : List String)
  | fieldMissing (label : String)
  | fieldRepeated (label : String)
  deriving Repr

namespace Fault

def category : Fault → Category
  | .endInList | .endInObject | .endInString | .endInValue => .unfinished
  | .wrongType .. | .wrongLength .. | .unknownVariant .. | .fieldMissing _ | .fieldRepeated _ =>
    .misshapen
  | _ => .malformed

/-- What is said of a fault. Where in the text it was found, which serde_json adds to it as
` at line L column C`, is left out. -/
def message : Fault → String
  | .endInList => "EOF while parsing a list"
  | .endInObject => "EOF while parsing an object"
  | .endInString => "EOF while parsing a string"
  | .endInValue => "EOF while parsing a value"
  | .colonExpected => "expected `:`"
  | .commaOrBracketExpected => "expected `,` or `]`"
  | .commaOrBraceExpected => "expected `,` or `\x7d`"
  | .wordExpected => "expected ident"
  | .valueExpected => "expected value"
  | .invalidEscape => "invalid escape"
  | .invalidNumber => "invalid number"
  | .numberOutOfRange => "number out of range"
  | .controlCharacter => "control character (\\u0000-\\u001F) found while parsing a string"
  | .keyNotString => "key must be a string"
  | .loneSurrogate => "lone leading surrogate in hex escape"
  | .surrogateCutOff => "unexpected end of hex escape"
  | .trailingComma => "trailing comma"
  | .trailingCharacters => "trailing characters"
  | .tooDeep => "recursion limit exceeded"
  | .wrongType found expected => "invalid type: " ++ found.text ++ ", expected " ++ expected
  | .wrongLength length expected =>
    "invalid length " ++ Decimal.text length ++ ", expected " ++ expected
  | .unknownVariant name known =>
    "unknown variant `" ++ name ++ "`, expected one of " ++
      ", ".intercalate (known.map fun k => "`" ++ k ++ "`")
  | .fieldMissing label => "missing field `" ++ label ++ "`"
  | .fieldRepeated label => "duplicate field `" ++ label ++ "`"

end Fault

end ModelDirectives.Json
