import ModelDirectives.Json.Fault

namespace ModelDirectives.Json

/-- A piece of a string: a character, or a 16 bit unit given by its four hexadecimal digits. -/
inductive Piece where
  | char (c : Char)
  | unit (code : Nat)
  deriving DecidableEq, Repr

/-- What ended a string: its closing quote, or what went wrong. -/
inductive Ending where
  | closed
  | unfinished
  | control
  | badEscape
  | badUnit
  deriving DecidableEq, Repr

def Ending.fault? : Ending → Option Fault
  | .closed => none
  | .unfinished => some .endInString
  | .control => some .controlCharacter
  | .badEscape | .badUnit => some .invalidEscape

namespace Spelling

/-- The character that an escape of one letter stands for. -/
def escape? (c : Char) : Option Char :=
  if c = '"' || c = '\\' || c = '/' then some c
  else if c = 'b' then some '\x08'
  else if c = 'f' then some '\x0c'
  else if c = 'n' then some '\n'
  else if c = 'r' then some '\r'
  else if c = 't' then some '\t'
  else none

def hexDigit? (c : Char) : Option Nat :=
  if c.isDigit then some (c.toNat - '0'.toNat)
  else if 'a' ≤ c ∧ c ≤ 'f' then some (c.toNat - 'a'.toNat + 10)
  else if 'A' ≤ c ∧ c ≤ 'F' then some (c.toNat - 'A'.toNat + 10)
  else none

/-- The number that four hexadecimal digits spell. -/
def unit? (a b c d : Char) : Option Nat := do
  some (((← hexDigit? a) * 16 + (← hexDigit? b)) * 16 * 16 +
    ((← hexDigit? c) * 16 + (← hexDigit? d)))

/-- Whether a text has fewer than four bytes, too few for the digits of a unit. -/
def tooShort (cs : List Char) : Bool :=
  (String.ofList cs).utf8ByteSize < 4

/-- The pieces of a string from behind its opening quote, what ended it, and the text behind. -/
def scan : List Char → List Piece × Ending × List Char
  | [] => ([], .unfinished, [])
  | '"' :: rest => ([], .closed, rest)
  | '\\' :: 'u' :: a :: b :: c :: d :: rest =>
    match unit? a b c d with
    | some code =>
      let (pieces, ending, rest) := scan rest
      (.unit code :: pieces, ending, rest)
    | none => ([], .badUnit, [])
  | '\\' :: 'u' :: rest => ([], if tooShort rest then .unfinished else .badUnit, [])
  | '\\' :: c :: rest =>
    match escape? c with
    | some e =>
      let (pieces, ending, rest) := scan rest
      (.char e :: pieces, ending, rest)
    | none => ([], .badEscape, [])
  | ['\\'] => ([], .unfinished, [])
  | c :: rest =>
    if c.toNat < 0x20 then ([], .control, [])
    else
      let (pieces, ending, rest) := scan rest
      (.char c :: pieces, ending, rest)

theorem scan_length (cs : List Char) : (scan cs).2.2.length ≤ cs.length := by
  fun_induction scan cs <;> simp_all <;> omega

/-- A unit that is the first half of a pair. -/
def leads (code : Nat) : Bool :=
  0xd800 ≤ code && code ≤ 0xdbff

/-- A unit that is the second half of a pair. -/
def trails (code : Nat) : Bool :=
  0xdc00 ≤ code && code ≤ 0xdfff

/-- The character that a pair of units stands for. -/
def joined (first second : Nat) : Char :=
  Char.ofNat (0x10000 + (first - 0xd800) * 0x400 + (second - 0xdc00))

/-- What is wrong with a first half of a pair behind which the pieces end. -/
def Ending.faultInPair : Ending → Fault
  | .unfinished => .endInString
  | .badUnit => .invalidEscape
  | .closed | .control | .badEscape => .surrogateCutOff

/-- The text that the pieces stand for; the halves of a pair have to stand together. -/
def decode : List Piece → Ending → Except Fault (List Char)
  | [], ending =>
    match ending.fault? with
    | none => .ok []
    | some fault => .error fault
  | .char c :: rest, ending => do .ok (c :: (← decode rest ending))
  | .unit code :: rest, ending =>
    if trails code then .error .loneSurrogate
    else if leads code then
      match rest with
      | [] => .error (Ending.faultInPair ending)
      | .char _ :: _ => .error .surrogateCutOff
      | .unit second :: rest =>
        if trails second then do .ok (joined code second :: (← decode rest ending))
        else .error .loneSurrogate
    else do .ok (Char.ofNat code :: (← decode rest ending))

end Spelling

end ModelDirectives.Json
