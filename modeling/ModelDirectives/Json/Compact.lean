import ModelDirectives.Decimal
import ModelDirectives.Json.Value

namespace ModelDirectives.Json

def spelled (c : Char) : List Char :=
  if c = '"' then ['\\', '"']
  else if c = '\\' then ['\\', '\\']
  else if c = '\n' then ['\\', 'n']
  else if c = '\r' then ['\\', 'r']
  else if c = '\t' then ['\\', 't']
  else if c = '\x08' then ['\\', 'b']
  else if c = '\x0c' then ['\\', 'f']
  else if c.toNat < 0x20 then
    ['\\', 'u', '0', '0', Nat.digitChar (c.toNat / 16), Nat.digitChar (c.toNat % 16)]
  else [c]

def quoted (s : String) : List Char :=
  '"' :: (s.toList.flatMap spelled ++ ['"'])

namespace Number

/-- A decimal in positional notation from `10 ^ -5` up to `10 ^ 16`, always with a digit on either
side of the point, and beyond with an exponent. -/
def written (d : Decimal.Scaled) : List Char :=
  let ds := Decimal.digits d.coefficient
  let point := ds.length + d.exponent
  if point < -4 then exponential ds (point - 1)
  else if point ≤ 0 then '0' :: '.' :: (List.replicate (-point).toNat '0' ++ ds)
  else if point < ds.length then ds.take point.toNat ++ '.' :: ds.drop point.toNat
  else if point ≤ 16 then ds ++ List.replicate d.exponent.toNat '0' ++ ['.', '0']
  else exponential ds (point - 1)
where
  exponential (ds : List Char) (e : Int) : List Char :=
    ds.take 1 ++ (if ds.length ≤ 1 then [] else '.' :: ds.drop 1) ++
      'e' :: (if e < 0 then '-' else '+') :: Decimal.digits e.natAbs

def text : Number → List Char
  | .int n => if n < 0 then '-' :: Decimal.digits n.natAbs else Decimal.digits n.natAbs
  | .real x =>
    let bits := x.toBits.toNat
    let magnitude := bits % Decimal.Binary.signBit
    let shown := if magnitude = 0 then ['0', '.', '0']
      else written (Decimal.Binary.ofBits magnitude).shortest
    if bits < Decimal.Binary.signBit then shown else '-' :: shown

end Number

def word : Bool → List Char
  | true => ['t', 'r', 'u', 'e']
  | false => ['f', 'a', 'l', 's', 'e']

mutual

/-- A value as short as it can be written. -/
def compact : Json → List Char
  | .null => ['n', 'u', 'l', 'l']
  | .bool flag => word flag
  | .number n => n.text
  | .string s => quoted s
  | .array [] => ['[', ']']
  | .array (x :: xs) => '[' :: (compact x ++ compactItems xs ++ [']'])
  | .object [] => ['{', '}']
  | .object ((k, v) :: ms) => '{' :: (quoted k ++ ':' :: (compact v ++ compactMembers ms ++ ['}']))

def compactItems : List Json → List Char
  | [] => []
  | x :: xs => ',' :: (compact x ++ compactItems xs)

def compactMembers : List (String × Json) → List Char
  | [] => []
  | (k, v) :: ms => ',' :: (quoted k ++ ':' :: (compact v ++ compactMembers ms))

end

/-- A value in the text of a message. -/
def compactText (j : Json) : String :=
  String.ofList (compact j)

end ModelDirectives.Json
