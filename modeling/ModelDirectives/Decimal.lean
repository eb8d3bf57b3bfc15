namespace ModelDirectives.Decimal

def digits (n : Nat) : List Char :=
  Nat.toDigits 10 n

/-- A number in words of a message. -/
def text (n : Nat) : String :=
  String.ofList (digits n)

/-- The positive number `mantissa · 2 ^ exponent`. The number below it is half as far away as the
one above it when `narrow` holds. -/
structure Binary where
  mantissa : Nat
  exponent : Int
  narrow : Bool
  deriving DecidableEq, Repr

/-- The number `coefficient · 10 ^ exponent`. -/
structure Scaled where
  coefficient : Nat
  exponent : Int
  deriving DecidableEq, Repr

namespace Binary

/-- The bit of a 64 bit number in front of its fraction, which is not stored. -/
def leadingBit : Nat :=
  0x10000000000000

/-- The bit of a 64 bit number that tells its sign. -/
def signBit : Nat :=
  0x8000000000000000

/-- The magnitude of a number in the 64 bit format, given by its bits without the sign. -/
def ofBits (bits : Nat) : Binary :=
  let field : Nat := bits / leadingBit
  let fraction : Nat := bits % leadingBit
  if field = 0 then ⟨fraction, -1074, false⟩
  else ⟨fraction + leadingBit, (field : Int) - 1075, fraction = 0 && 1 < field⟩

/-- The quarters of `2 ^ exponent` that lie between the number and the lower end of its interval. -/
def below (b : Binary) : Nat :=
  if b.narrow then 1 else 2

/-- The multiples of `10 ^ e` next to the number, below and above, that lie in its interval, the
nearer one if both do and the even one if they are equally near. All is measured in a unit that
makes it whole. -/
def nearest? (b : Binary) (e : Int) : Option Nat :=
  let quarter := Nat.pow 2 (b.exponent - 2).toNat * Nat.pow 10 (-e).toNat
  let step := Nat.pow 2 (2 - b.exponent).toNat * Nat.pow 10 e.toNat
  let value := 4 * b.mantissa * quarter
  let low := value - b.below * quarter
  let high := value + 2 * quarter
  let even := b.mantissa % 2 = 0
  let inside (n : Nat) : Bool := (low < n && n < high) || (even && (low = n || n = high))
  let d := value / step
  let fall := value - d * step
  let rise := (d + 1) * step - value
  match inside (d * step), inside ((d + 1) * step) with
  | true, true => if fall < rise || (fall = rise && d % 2 = 0) then some d else some (d + 1)
  | true, false => some d
  | false, true => some (d + 1)
  | false, false => none

/-- The shortest decimal that reads back as a number. A number owns the interval of reals that round
to it; its shortest decimal is the multiple of the largest power of ten that lies there, which is
looked for from the coarsest power that a 64 bit number can need down to the finest. -/
def shortest (b : Binary) : Scaled :=
  ((List.range 640).findSome? fun (i : Nat) =>
    let e : Int := 310 - i
    (b.nearest? e).map fun d => ⟨d, e⟩).getD ⟨0, 0⟩

end Binary

end ModelDirectives.Decimal
