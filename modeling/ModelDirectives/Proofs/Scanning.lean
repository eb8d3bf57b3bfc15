import ModelDirectives.Proofs.Grammar

namespace ModelDirectives.Json.Spelling

theorem hexDigit?_of_hexDigit {d : Char} {n : Nat} (h : HexDigit d n) : hexDigit? d = some n := by
  have table : ∀ n < 16, hexDigit? (Nat.digitChar n) = some n ∧
      hexDigit? (Nat.digitChar n).toUpper = some n := by decide
  obtain ⟨bound, rfl | rfl⟩ := h
  · exact (table n bound).1
  · exact (table n bound).2

theorem unit?_of_hexDigits {a b c d : Char} {i j k l : Nat} (first : HexDigit a i)
    (second : HexDigit b j) (third : HexDigit c k) (fourth : HexDigit d l) :
    unit? a b c d = some (((i * 16 + j) * 16 + k) * 16 + l) := by
  simp only [unit?, hexDigit?_of_hexDigit first, hexDigit?_of_hexDigit second,
    hexDigit?_of_hexDigit third, hexDigit?_of_hexDigit fourth, Option.bind_eq_bind,
    Option.bind_some, Option.some.injEq]
  omega

/-- A character that needs no escape is scanned as it stands. -/
theorem scan_plain {c : Char} (quote : c ≠ '"') (slash : c ≠ '\\') (printable : 0x20 ≤ c.toNat)
    (cs : List Char) :
    scan (c :: cs) = (.char c :: (scan cs).1, (scan cs).2.1, (scan cs).2.2) := by
  rw [scan.eq_def]
  split <;> simp_all

theorem scan_short {letter c : Char} (escape : (letter, c) ∈ shortEscapes) (cs : List Char) :
    scan ('\\' :: letter :: cs) = (.char c :: (scan cs).1, (scan cs).2.1, (scan cs).2.2) := by
  simp only [shortEscapes, List.mem_cons, Prod.mk.injEq, List.not_mem_nil, or_false] at escape
  rcases escape with ⟨rfl, rfl⟩ | ⟨rfl, rfl⟩ | ⟨rfl, rfl⟩ | ⟨rfl, rfl⟩ | ⟨rfl, rfl⟩ | ⟨rfl, rfl⟩ |
    ⟨rfl, rfl⟩ | ⟨rfl, rfl⟩ <;> rfl

theorem scan_of_spells {cs : List Char} {ps : List Piece} (h : SpellsPieces cs ps)
    (rest : List Char) : scan (cs ++ '"' :: rest) = (ps, .closed, rest) := by
  induction h with
  | nil => rfl
  | plain quote slash printable _ ih =>
    rw [List.cons_append, scan_plain quote slash printable, ih]
  | short escape _ ih => rw [List.cons_append, List.cons_append, scan_short escape, ih]
  | unit first second third fourth _ ih =>
    simp only [List.cons_append]
    rw [scan, unit?_of_hexDigits first second third fourth]
    simp only [ih]

theorem not_surrogate (c : Char) : trails c.toNat = false ∧ leads c.toNat = false := by
  have valid : c.toNat < 0xd800 ∨ (0xdfff < c.toNat ∧ c.toNat < 0x110000) := c.valid
  simp only [trails, leads, Bool.and_eq_false_iff, decide_eq_false_iff_not]
  omega

theorem decode_char {c : Char} {ps : List Piece} {cs : List Char}
    (rest : decode ps .closed = .ok cs) : decode (.char c :: ps) .closed = .ok (c :: cs) := by
  rw [decode, rest]
  rfl

theorem decode_unit {c : Char} {ps : List Piece} {cs : List Char}
    (rest : decode ps .closed = .ok cs) : decode (.unit c.toNat :: ps) .closed = .ok (c :: cs) := by
  rw [decode.eq_def]
  simp only [not_surrogate c, rest, Char.ofNat_toNat, Bool.false_eq_true, if_false]
  rfl

/-- A leading and a trailing unit stand for one character. -/
theorem decode_pair {c : Char} {high low : Nat} {ps : List Piece} {cs : List Char}
    (first : 0xd800 ≤ high ∧ high ≤ 0xdbff) (second : 0xdc00 ≤ low ∧ low ≤ 0xdfff)
    (both : c.toNat = 0x10000 + (high - 0xd800) * 0x400 + (low - 0xdc00))
    (rest : decode ps .closed = .ok cs) :
    decode (.unit high :: .unit low :: ps) .closed = .ok (c :: cs) := by
  have notTrailing : trails high = false := by
    simp only [trails, Bool.and_eq_false_iff, decide_eq_false_iff_not]
    omega
  have leading : leads high = true := by simp [leads, first]
  have trailing : trails low = true := by simp [trails, second]
  have char : joined high low = c := by rw [joined, ← both, Char.ofNat_toNat]
  rw [decode.eq_def]
  simp only [notTrailing, leading, trailing, char, rest, Bool.false_eq_true, if_false, if_true]
  rfl

/-- The pieces of a string are decoded to the text that they stand for. -/
theorem decode_of_means {ps : List Piece} {cs : List Char} (h : Means ps cs) :
    decode ps .closed = .ok cs := by
  induction h with
  | nil => rfl
  | char _ ih => exact decode_char ih
  | unit _ ih => exact decode_unit ih
  | pair leads trails joined _ ih => exact decode_pair leads trails joined ih

end ModelDirectives.Json.Spelling
