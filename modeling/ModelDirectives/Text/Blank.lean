namespace ModelDirectives

namespace Text

/-- A character with the Unicode property White_Space. -/
def isBlank (c : Char) : Bool :=
  let n := c.toNat
  (9 ≤ n && n ≤ 13) || n == 0x20 || n == 0x85 || n == 0xa0 || n == 0x1680 ||
    (0x2000 ≤ n && n ≤ 0x200a) || n == 0x2028 || n == 0x2029 || n == 0x202f || n == 0x205f ||
    n == 0x3000

/-- The characters from the first that is not blank to the last. -/
def trimmed (cs : List Char) : List Char :=
  ((cs.dropWhile isBlank).reverse.dropWhile isBlank).reverse

/-- A text with nothing but blanks in it. -/
def blank (s : String) : Bool :=
  s.toList.all isBlank

def blanks (n : Nat) : String :=
  String.ofList (List.replicate n ' ')

/-- A text followed by blanks up to a number of characters. -/
def padded (width : Nat) (s : String) : String :=
  s ++ blanks (width - s.length)

end Text

/-- The tokens between the commas, each without the blanks at its ends. A text of blanks alone
lists nothing; otherwise order, repetitions and empty tokens are kept. -/
def Context.split (raw : String) : List String :=
  if Text.blank raw then []
  else (raw.toList.splitOn ',').map fun piece => String.ofList (Text.trimmed piece)

end ModelDirectives
