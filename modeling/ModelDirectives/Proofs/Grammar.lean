import ModelDirectives.Json.Token

namespace ModelDirectives.Json

/-- A hexadecimal digit in a letter of either case. -/
def HexDigit (d : Char) (n : Nat) : Prop :=
  n < 16 ∧ (d = Nat.digitChar n ∨ d = (Nat.digitChar n).toUpper)

/-- The letters behind a backslash and the characters that they stand for. -/
def shortEscapes : List (Char × Char) :=
  [('"', '"'), ('\\', '\\'), ('/', '/'), ('b', '\x08'), ('f', '\x0c'), ('n', '\n'), ('r', '\r'),
    ('t', '\t')]

/-- What may stand between the quotes of a string. -/
inductive SpellsPieces : List Char → List Piece → Prop
  | nil : SpellsPieces [] []
  | plain {c : Char} {cs : List Char} {ps : List Piece} (quote : c ≠ '"') (slash : c ≠ '\\')
      (printable : 0x20 ≤ c.toNat) (rest : SpellsPieces cs ps) :
    SpellsPieces (c :: cs) (.char c :: ps)
  | short {letter c : Char} {cs : List Char} {ps : List Piece}
      (escape : (letter, c) ∈ shortEscapes) (rest : SpellsPieces cs ps) :
    SpellsPieces ('\\' :: letter :: cs) (.char c :: ps)
  | unit {a b c d : Char} {i j k l : Nat} {cs : List Char} {ps : List Piece} (first : HexDigit a i)
      (second : HexDigit b j) (third : HexDigit c k) (fourth : HexDigit d l)
      (rest : SpellsPieces cs ps) :
    SpellsPieces ('\\' :: 'u' :: a :: b :: c :: d :: cs)
      (.unit (((i * 16 + j) * 16 + k) * 16 + l) :: ps)

/-- The text that pieces stand for. A unit stands for the character of its number, or with the unit
behind it for a character beyond the numbers of units. -/
inductive Means : List Piece → List Char → Prop
  | nil : Means [] []
  | char {c : Char} {ps : List Piece} {cs : List Char} (rest : Means ps cs) :
    Means (.char c :: ps) (c :: cs)
  | unit {c : Char} {ps : List Piece} {cs : List Char} (rest : Means ps cs) :
    Means (.unit c.toNat :: ps) (c :: cs)
  | pair {c : Char} {high low : Nat} {ps : List Piece} {cs : List Char}
      (leads : 0xd800 ≤ high ∧ high ≤ 0xdbff) (trails : 0xdc00 ≤ low ∧ low ≤ 0xdfff)
      (joined : c.toNat = 0x10000 + (high - 0xd800) * 0x400 + (low - 0xdc00))
      (rest : Means ps cs) : Means (.unit high :: .unit low :: ps) (c :: cs)

/-- One digit or more. -/
def Digits (ds : List Char) : Prop :=
  ds ≠ [] ∧ ∀ d ∈ ds, d.isDigit = true

inductive SpellsMinus : List Char → Bool → Prop
  | none : SpellsMinus [] false
  | minus : SpellsMinus ['-'] true

inductive SpellsSign : List Char → Bool → Prop
  | none : SpellsSign [] false
  | plus : SpellsSign ['+'] false
  | minus : SpellsSign ['-'] true

inductive SpellsFraction : List Char → Option (List Char) → Prop
  | none : SpellsFraction [] none
  | some {ds : List Char} (digits : Digits ds) : SpellsFraction ('.' :: ds) (some ds)

inductive SpellsExponent : List Char → Option (Bool × List Char) → Prop
  | none : SpellsExponent [] none
  | some {e : Char} {sign ds : List Char} {negative : Bool} (letter : e = 'e' ∨ e = 'E')
      (signed : SpellsSign sign negative) (digits : Digits ds) :
    SpellsExponent (e :: (sign ++ ds)) (some (negative, ds))

/-- A numeral. A zero in front of the point or the power of ten stands alone. -/
inductive SpellsNumeral : List Char → Numeral → Prop
  | mk {sign whole point power : List Char} {negative : Bool} {fraction : Option (List Char)}
      {exponent : Option (Bool × List Char)} (signed : SpellsMinus sign negative)
      (digits : Digits whole) (zero : ∀ ds, whole = '0' :: ds → ds = [])
      (fractional : SpellsFraction point fraction) (scaled : SpellsExponent power exponent) :
    SpellsNumeral (sign ++ (whole ++ (point ++ power))) ⟨negative, whole, fraction, exponent⟩

/-- The tokens that end by themselves: all but the numerals. -/
inductive SpellsToken : List Char → Token → Prop
  | openBracket : SpellsToken ['['] .openBracket
  | closeBracket : SpellsToken [']'] .closeBracket
  | openBrace : SpellsToken ['{'] .openBrace
  | closeBrace : SpellsToken ['}'] .closeBrace
  | comma : SpellsToken [','] .comma
  | colon : SpellsToken [':'] .colon
  | null : SpellsToken ['n', 'u', 'l', 'l'] (.null (.ok ()))
  | true : SpellsToken ['t', 'r', 'u', 'e'] (.bool true (.ok ()))
  | false : SpellsToken ['f', 'a', 'l', 's', 'e'] (.bool false (.ok ()))
  | string {cs : List Char} {ps : List Piece} (h : SpellsPieces cs ps) :
    SpellsToken ('"' :: (cs ++ ['"'])) (.string ps .closed)

/-- A character that may stand between tokens. -/
def Blank (c : Char) : Prop :=
  c = ' ' ∨ c = '\n' ∨ c = '\t' ∨ c = '\r'

/-- A text in front of which a numeral ends. -/
def Stops (cs : List Char) : Prop :=
  ∀ c ∈ cs.head?, ¬(c.isDigit = true ∨ c = '.' ∨ c = 'e' ∨ c = 'E')

/-- How tokens are spelled: one behind the other, with any blanks between them and around them. -/
inductive Spells : List Char → List Token → Prop
  | nil : Spells [] []
  | blank {c : Char} {cs : List Char} {ts : List Token} (h : Blank c) (rest : Spells cs ts) :
    Spells (c :: cs) ts
  | token {word cs : List Char} {t : Token} {ts : List Token} (h : SpellsToken word t)
      (rest : Spells cs ts) : Spells (word ++ cs) (t :: ts)
  | numeral {word cs : List Char} {n : Numeral} {ts : List Token} (h : SpellsNumeral word n)
      (ends : Stops cs) (rest : Spells cs ts) : Spells (word ++ cs) (.number (.ok n) :: ts)

theorem Stops.nil : Stops [] := by
  intro c hc
  cases hc

theorem Stops.cons {c : Char} (h : ¬(c.isDigit = true ∨ c = '.' ∨ c = 'e' ∨ c = 'E'))
    (cs : List Char) : Stops (c :: cs) := by
  intro d hd
  cases hd
  exact h

/-- A token of a single character. -/
theorem Spells.mark {c : Char} {cs : List Char} {t : Token} {ts : List Token}
    (h : SpellsToken [c] t) (rest : Spells cs ts) : Spells (c :: cs) (t :: ts) :=
  .token h rest

inductive Tree where
  | null
  | bool (flag : Bool)
  | number (n : Numeral)
  | string (pieces : List Piece)
  | array (items : List Tree)
  | object (members : List (List Piece × Tree))

/-- Groups of tokens with a comma before each of them, except before the very first one. -/
def separated (first : Bool) : List (List Token) → List Token
  | [] => []
  | g :: gs => (if first then g else .comma :: g) ++ separated false gs

namespace Tree

mutual

/-- The tokens of a tree. -/
def tokens : Tree → List Token
  | .null => [.null (.ok ())]
  | .bool flag => [.bool flag (.ok ())]
  | .number n => [.number (.ok n)]
  | .string pieces => [.string pieces .closed]
  | .array items => .openBracket :: (separated true (itemTokens items) ++ [.closeBracket])
  | .object members => .openBrace :: (separated true (memberTokens members) ++ [.closeBrace])

def itemTokens : List Tree → List (List Token)
  | [] => []
  | t :: ts => t.tokens :: itemTokens ts

def memberTokens : List (List Piece × Tree) → List (List Token)
  | [] => []
  | (key, t) :: ms => (.string key .closed :: .colon :: t.tokens) :: memberTokens ms

end

end Tree

end ModelDirectives.Json
