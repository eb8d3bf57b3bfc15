import ModelDirectives.Json.Token

namespace ModelDirectives.Json

/-- What reads something off the front of the tokens and leaves those behind it. -/
abbrev Reader (α : Type) :=
  List Token → Except Fault (α × List Token)

namespace Cut

def faultInWord : Cut → Fault
  | .ended => .endInValue
  | .broken => .wordExpected

def faultInNumeral : Cut → Fault
  | .ended => .endInValue
  | .broken => .invalidNumber

end Cut

namespace Token

def wordOf : Except Cut Unit → Except Fault Unit
  | .ok () => .ok ()
  | .error cut => .error cut.faultInWord

def numberOf : Except Cut Numeral → Except Fault Number
  | .ok n => n.number
  | .error cut => .error cut.faultInNumeral

def stringOf (pieces : List Piece) (ending : Ending) : Except Fault String :=
  (Spelling.decode pieces ending).map String.ofList

/-- What is found at a token where something else was asked for. -/
def found : Token → Except Fault Found
  | .null outcome => do
    wordOf outcome
    .ok .null
  | .bool flag outcome => do
    wordOf outcome
    .ok (.bool flag)
  | .number outcome => (numberOf outcome).map .number
  | .string pieces ending => (stringOf pieces ending).map .string
  | .openBracket => .ok .sequence
  | .openBrace => .ok .map
  | _ => .error .valueExpected

/-- The fault of a token that does not start what was asked for. -/
def refusal (expected : String) (t : Token) : Fault :=
  match t.found with
  | .ok f => .wrongType f expected
  | .error fault => fault

end Token

/-- A step through a list or an object: on to something there, or past its end. -/
inductive Turn (α : Type) where
  | more (item : α) (rest : List Token)
  | done (rest : List Token)
  deriving Repr

namespace Reader

/-- On to the next item of a list, which has a comma before it unless it is the first. -/
def nextItem (first : Bool) : List Token → Except Fault (Turn Unit)
  | [] => .error .endInList
  | .closeBracket :: rest => .ok (.done rest)
  | t :: rest =>
    if first then .ok (.more () (t :: rest))
    else
      match t, rest with
      | .comma, [] => .error .endInValue
      | .comma, .closeBracket :: _ => .error .trailingComma
      | .comma, rest => .ok (.more () rest)
      | _, _ => .error .commaOrBracketExpected

def key : Reader String
  | .string pieces ending :: rest => do .ok (← Token.stringOf pieces ending, rest)
  | _ => .error .keyNotString

/-- On to the next key of an object, which has a comma before it unless it is the first. -/
def nextKey (first : Bool) : List Token → Except Fault (Turn String)
  | [] => .error .endInObject
  | .closeBrace :: rest => .ok (.done rest)
  | t :: rest =>
    if first then do
      let (k, rest) ← key (t :: rest)
      .ok (.more k rest)
    else
      match t, rest with
      | .comma, [] => .error .endInValue
      | .comma, .closeBrace :: _ => .error .trailingComma
      | .comma, rest => do
        let (k, rest) ← key rest
        .ok (.more k rest)
      | _, _ => .error .commaOrBraceExpected

def colon : List Token → Except Fault (List Token)
  | [] => .error .endInObject
  | .colon :: rest => .ok rest
  | _ => .error .colonExpected

/-- The items of a list and its end, in at most as many steps as there are tokens in the bound. -/
def itemsFrom {α : Type} (item : Reader α) : List Token → Bool → Reader (List α)
  | [], _, _ => .error .endInList
  | _ :: bound, first, ts => do
    match ← nextItem first ts with
    | .done rest => .ok ([], rest)
    | .more () ts => do
      let (x, rest) ← item ts
      let (xs, rest) ← itemsFrom item bound false rest
      .ok (x :: xs, rest)

/-- The items of a list from behind its opening bracket to its end. Each step takes a token, so
the tokens bound the steps. -/
def items {α : Type} (item : Reader α) : Reader (List α) := fun ts =>
  itemsFrom item ts true ts

/-- The members of an object as they are written and its end, in at most as many steps as there are
tokens in the bound. -/
def membersFrom {α : Type} (item : Reader α) : List Token → Bool → Reader (List (String × α))
  | [], _, _ => .error .endInObject
  | _ :: bound, first, ts => do
    match ← nextKey first ts with
    | .done rest => .ok ([], rest)
    | .more k rest => do
      let (x, rest) ← item (← colon rest)
      let (xs, rest) ← membersFrom item bound false rest
      .ok ((k, x) :: xs, rest)

/-- The members of an object from behind its opening brace to its end. Each step takes a token, so
the tokens bound the steps. -/
def members {α : Type} (item : Reader α) : Reader (List (String × α)) := fun ts =>
  membersFrom item ts true ts

/-- Any value. Lists and objects may stand one in another only so deep; this and the readers below
are told how many more of them may be opened. -/
def value (depth : Nat) : Reader Json
  | [] => .error .endInValue
  | .null outcome :: rest => do
    Token.wordOf outcome
    .ok (Json.null, rest)
  | .bool flag outcome :: rest => do
    Token.wordOf outcome
    .ok (.bool flag, rest)
  | .number outcome :: rest => do .ok (.number (← Token.numberOf outcome), rest)
  | .string pieces ending :: rest => do .ok (.string (← Token.stringOf pieces ending), rest)
  | .openBracket :: rest =>
    match depth with
    | 0 => .error .tooDeep
    | depth + 1 => do
      let (xs, rest) ← items (value depth) rest
      .ok (.array xs, rest)
  | .openBrace :: rest =>
    match depth with
    | 0 => .error .tooDeep
    | depth + 1 => do
      let (ms, rest) ← members (value depth) rest
      .ok (.object (collect ms), rest)
  | _ => .error .valueExpected

def text (_depth : Nat) : Reader String
  | [] => .error .endInValue
  | .string pieces ending :: rest => do .ok (← Token.stringOf pieces ending, rest)
  | t :: _ => .error (t.refusal "a string")

/-- A null, which stands for nothing at all. -/
def unit : Reader Unit
  | [] => .error .endInValue
  | .null outcome :: rest => do
    Token.wordOf outcome
    .ok ((), rest)
  | t :: _ => .error (t.refusal "unit")

def sequence {α : Type} (item : Nat → Reader α) (depth : Nat) : Reader (List α)
  | [] => .error .endInValue
  | .openBracket :: rest =>
    match depth with
    | 0 => .error .tooDeep
    | depth + 1 => items (item depth) rest
  | t :: _ => .error (t.refusal "a sequence")

/-- An object with values of any type; of a repeated key the first position and the last value
remain. -/
def mapping (depth : Nat) : Reader (List (String × Json))
  | [] => .error .endInValue
  | .openBrace :: rest =>
    match depth with
    | 0 => .error .tooDeep
    | depth + 1 => do
      let (ms, rest) ← members (value depth) rest
      .ok (collect ms, rest)
  | t :: _ => .error (t.refusal "a map")

/-- One of several names, given as a string or as the key of an object whose only member is null. A
key that is no string is refused there as in any other object. -/
def variant {α : Type} (known : List (String × α)) (depth : Nat) : Reader α
  | [] => .error .endInValue
  | .string pieces ending :: rest => do
    .ok (← choose (← Token.stringOf pieces ending), rest)
  | .openBrace :: rest =>
    match depth with
    | 0 => .error .tooDeep
    | _ + 1 => do
      match ← nextKey true rest with
      | .done _ => .error .valueExpected
      | .more name rest => do
        let chosen ← choose name
        let ((), rest) ← unit (← colon rest)
        match rest with
        | .closeBrace :: rest => .ok (chosen, rest)
        | [] => .error .endInObject
        | _ => .error .valueExpected
  | _ => .error .valueExpected
where
  choose (name : String) : Except Fault α :=
    match known.find? (·.1 = name) with
    | some (_, x) => .ok x
    | none => .error (.unknownVariant name (known.map Prod.fst))

end Reader

/-- How many lists and objects may stand one in another. -/
def maxDepth : Nat :=
  127

/-- Reads a whole text, which holds one thing and nothing behind it. -/
def readAll {α : Type} (reader : Nat → Reader α) (s : String) : Except Fault α := do
  let (x, rest) ← reader maxDepth (tokens s.toList)
  match rest with
  | [] => .ok x
  | _ :: _ => .error .trailingCharacters

def read (s : String) : Except Fault Json :=
  readAll Reader.value s

end ModelDirectives.Json
