import ModelDirectives.Json.Fault

namespace ModelDirectives.Json

/-- Why a word or a numeral could not be read to its end: the text ends in it, or a character
stands there that cannot follow. -/
inductive Cut where
  | ended
  | broken
  deriving DecidableEq, Repr

/-- A step that succeeds goes on from one that succeeded before. -/
theorem ok_of_bind {ε α β : Type} {x : Except ε α} {next : α → Except ε β} {y : β}
    (h : x >>= next = .ok y) : ∃ a, x = .ok a ∧ next a = .ok y := by
  cases x with
  | error => cases h
  | ok a => exact ⟨a, rfl, h⟩

/-- A number as written: digits before the point, digits behind it, and the power of ten. -/
structure Numeral where
  negative : Bool
  whole : List Char
  fraction : Option (List Char)
  exponent : Option (Bool × List Char)
  deriving DecidableEq, Repr

namespace Numeral

/-- One digit or more from the front of a text. -/
def someDigits (cs : List Char) : Except Cut (List Char × List Char) :=
  match cs.takeWhile Char.isDigit, cs.dropWhile Char.isDigit with
  | [], [] => .error .ended
  | [], _ => .error .broken
  | ds, rest => .ok (ds, rest)

/-- The digits before the point; a zero in front stands alone. -/
def readWhole (cs : List Char) : Except Cut (List Char × List Char) := do
  match ← someDigits cs with
  | ('0' :: _ :: _, _) => .error .broken
  | read => .ok read

def readFraction : List Char → Except Cut (Option (List Char) × List Char)
  | '.' :: cs => do
    let (ds, rest) ← someDigits cs
    .ok (some ds, rest)
  | cs => .ok (none, cs)

/-- Whether a minus stands in front, and the text behind it. -/
def readMinus : List Char → Bool × List Char
  | '-' :: cs => (true, cs)
  | cs => (false, cs)

/-- Whether a minus stands in front, and the text behind the sign, which may be a plus too. -/
def readSign : List Char → Bool × List Char
  | '+' :: cs => (false, cs)
  | cs => readMinus cs

/-- The power of ten; it is negative when the flag is set. -/
def readExponent : List Char → Except Cut (Option (Bool × List Char) × List Char)
  | [] => .ok (none, [])
  | c :: cs =>
    if c = 'e' || c = 'E' then do
      let (ds, rest) ← someDigits (readSign cs).2
      .ok (some ((readSign cs).1, ds), rest)
    else .ok (none, c :: cs)

/-- A numeral from the front of a text, and the text behind it. -/
def read (cs : List Char) : Except Cut (Numeral × List Char) := do
  let (whole, cs₁) ← readWhole (readMinus cs).2
  let (fraction, cs₂) ← readFraction cs₁
  let (exponent, cs₃) ← readExponent cs₂
  .ok (⟨(readMinus cs).1, whole, fraction, exponent⟩, cs₃)

/-- The largest significand: 64 bits without a sign. -/
def limit : Nat :=
  0xffffffffffffffff

/-- How far below zero a whole number may lie: 64 bits with a sign. -/
def lowest : Nat :=
  0x8000000000000000

/-- Appends digits to a number as long as it stays within the limit; also the digits left over. -/
def fill : Nat → List Char → Nat × List Char
  | n, [] => (n, [])
  | n, d :: ds =>
    let m := 10 * n + (d.toNat - '0'.toNat)
    if m ≤ limit then fill m ds else (n, d :: ds)

/-- The number that digits spell. -/
def natural (ds : List Char) : Nat :=
  ds.foldl (fun n d => 10 * n + (d.toNat - '0'.toNat)) 0

/-- The floating point number next to a power of ten. -/
def tenTo (n : Nat) : Float :=
  Float.ofScientific 1 false n

/-- A number times a power of ten, rounded at each of at most a few steps; none when it is beyond
the range. -/
def scaled (x : Float) (e : Int) : Option Float :=
  if e.natAbs ≤ 308 then
    if 0 ≤ e then
      let y := x * tenTo e.natAbs
      if y.isInf then none else some y
    else some (x / tenTo e.natAbs)
  else if x == 0 then some x
  else if 0 ≤ e then none
  else scaled (x / tenTo 308) (e + 308)
termination_by e.natAbs

/-- The number that a numeral stands for. Digits beyond 64 bits count by their places only; a whole
number that does not fit, and a zero with a sign, are floating point numbers. -/
def number (n : Numeral) : Except Fault Number :=
  let (high, left) := fill 0 n.whole
  let fraction := n.fraction.getD []
  let (significand, unused) := fill high fraction
  if left.isEmpty && n.fraction.isNone && n.exponent.isNone && !n.negative then
    .ok (.int significand)
  else if left.isEmpty && n.fraction.isNone && n.exponent.isNone && 0 < significand &&
      significand ≤ lowest then
    .ok (.int (-significand))
  else
    let power : Int := match n.exponent with
      | none => 0
      | some (true, ds) => -natural ds
      | some (false, ds) => natural ds
    let places : Int := left.length - (fraction.length - unused.length)
    match scaled significand.toUInt64.toFloat (places + power) with
    | none => .error .numberOutOfRange
    | some x => .ok (.real (if n.negative then -x else x))

theorem someDigits_length {cs ds rest : List Char} (h : someDigits cs = .ok (ds, rest)) :
    rest.length < cs.length := by
  have parts := congrArg List.length
    (List.takeWhile_append_dropWhile (p := Char.isDigit) (l := cs))
  rw [List.length_append] at parts
  unfold someDigits at h
  cases ht : cs.takeWhile Char.isDigit with
  | nil => cases hd : cs.dropWhile Char.isDigit <;> simp [ht, hd] at h
  | cons d ds =>
    simp only [ht] at h
    cases h
    rw [ht, List.length_cons] at parts
    omega

theorem readWhole_length {cs ds rest : List Char} (h : readWhole cs = .ok (ds, rest)) :
    rest.length < cs.length := by
  obtain ⟨read, hd, h⟩ := ok_of_bind h
  split at h
  · cases h
  · cases h
    exact someDigits_length hd

theorem readFraction_length {cs rest : List Char} {f : Option (List Char)}
    (h : readFraction cs = .ok (f, rest)) : rest.length ≤ cs.length := by
  unfold readFraction at h
  split at h
  · obtain ⟨read, hd, h⟩ := ok_of_bind h
    cases h
    exact Nat.le_succ_of_le (Nat.le_of_lt (someDigits_length hd))
  · cases h
    exact Nat.le_refl _

theorem readMinus_length (cs : List Char) : (readMinus cs).2.length ≤ cs.length := by
  unfold readMinus
  split
  · exact Nat.le_succ _
  · exact Nat.le_refl _

theorem readSign_length (cs : List Char) : (readSign cs).2.length ≤ cs.length := by
  unfold readSign
  split
  · exact Nat.le_succ _
  · exact readMinus_length _

theorem readExponent_length {cs rest : List Char} {e : Option (Bool × List Char)}
    (h : readExponent cs = .ok (e, rest)) : rest.length ≤ cs.length := by
  unfold readExponent at h
  split at h
  · cases h
    exact Nat.le_refl _
  next c cs =>
    split at h
    · obtain ⟨read, hd, h⟩ := ok_of_bind h
      cases h
      have := someDigits_length hd
      have := readSign_length cs
      simp only [List.length_cons]
      omega
    · cases h
      exact Nat.le_refl _

/-- A numeral takes up at least one character. -/
theorem read_length {cs rest : List Char} {n : Numeral} (h : read cs = .ok (n, rest)) :
    rest.length < cs.length := by
  obtain ⟨whole, hw, h⟩ := ok_of_bind h
  obtain ⟨fraction, hf, h⟩ := ok_of_bind h
  obtain ⟨exponent, he, h⟩ := ok_of_bind h
  cases h
  have := readMinus_length cs
  have := readWhole_length hw
  have := readFraction_length hf
  have := readExponent_length he
  omega

end Numeral

end ModelDirectives.Json
