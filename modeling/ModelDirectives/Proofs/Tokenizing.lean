import ModelDirectives.Proofs.Scanning

namespace ModelDirectives.Json

theorem Stops.of_head {cs : List Char} {c : Char} (h : Stops cs) (head : c ∈ cs.head?) :
    ¬c.isDigit = true ∧ c ≠ '.' ∧ c ≠ 'e' ∧ c ≠ 'E' := by
  simpa only [not_or] using h c head

namespace Numeral

theorem takeWhile_digits {ds rest : List Char} (digits : ∀ d ∈ ds, d.isDigit = true)
    (ends : ∀ c ∈ rest.head?, ¬c.isDigit = true) : (ds ++ rest).takeWhile Char.isDigit = ds := by
  rw [List.takeWhile_append_of_pos digits]
  cases rest with
  | nil => simp
  | cons c cs => simp [ends c rfl]

theorem dropWhile_digits {ds rest : List Char} (digits : ∀ d ∈ ds, d.isDigit = true)
    (ends : ∀ c ∈ rest.head?, ¬c.isDigit = true) : (ds ++ rest).dropWhile Char.isDigit = rest := by
  rw [List.dropWhile_append_of_pos digits]
  cases rest with
  | nil => rfl
  | cons c cs => simp [ends c rfl]

theorem someDigits_append {ds rest : List Char} (digits : Digits ds)
    (ends : ∀ c ∈ rest.head?, ¬c.isDigit = true) : someDigits (ds ++ rest) = .ok (ds, rest) := by
  unfold someDigits
  rw [takeWhile_digits digits.2 ends, dropWhile_digits digits.2 ends]
  cases ds with
  | nil => exact absurd rfl digits.1
  | cons d ds => rfl

theorem readWhole_append {ds rest : List Char} (digits : Digits ds)
    (zero : ∀ tail, ds = '0' :: tail → tail = []) (ends : ∀ c ∈ rest.head?, ¬c.isDigit = true) :
    readWhole (ds ++ rest) = .ok (ds, rest) := by
  unfold readWhole
  rw [someDigits_append digits ends]
  simp only [bind, Except.bind]
  split
  next eq =>
    cases eq
    cases zero _ rfl
  next => rfl

theorem readMinus_append {sign ds : List Char} {negative : Bool}
    (signed : SpellsMinus sign negative) (digits : Digits ds) (rest : List Char) :
    readMinus (sign ++ (ds ++ rest)) = (negative, ds ++ rest) := by
  cases signed with
  | minus => rfl
  | none =>
    cases ds with
    | nil => exact absurd rfl digits.1
    | cons d ds =>
      have digit : d.isDigit = true := digits.2 d (by simp)
      have notMinus : d ≠ '-' := by
        rintro rfl
        revert digit
        decide
      simp [readMinus, notMinus]

theorem readSign_append {sign ds : List Char} {negative : Bool}
    (signed : SpellsSign sign negative) (digits : Digits ds) (rest : List Char) :
    readSign (sign ++ (ds ++ rest)) = (negative, ds ++ rest) := by
  cases signed with
  | plus => rfl
  | minus => rfl
  | none =>
    cases ds with
    | nil => exact absurd rfl digits.1
    | cons d ds =>
      have digit : d.isDigit = true := digits.2 d (by simp)
      have notPlus : d ≠ '+' := by
        rintro rfl
        revert digit
        decide
      have minus := readMinus_append .none digits rest
      simp only [List.nil_append, List.cons_append] at minus ⊢
      simp [readSign, notPlus, minus]

theorem readFraction_append {point rest : List Char} {fraction : Option (List Char)}
    (fractional : SpellsFraction point fraction) (notPoint : ∀ c ∈ rest.head?, c ≠ '.')
    (ends : ∀ c ∈ rest.head?, ¬c.isDigit = true) :
    readFraction (point ++ rest) = .ok (fraction, rest) := by
  cases fractional with
  | none =>
    cases rest with
    | nil => rfl
    | cons c cs =>
      have other : c ≠ '.' := notPoint c rfl
      simp [readFraction, other]
  | some digits =>
    rw [List.cons_append, readFraction, someDigits_append digits ends]
    rfl

theorem readExponent_append {power rest : List Char} {exponent : Option (Bool × List Char)}
    (scaled : SpellsExponent power exponent) (stops : Stops rest) :
    readExponent (power ++ rest) = .ok (exponent, rest) := by
  cases scaled with
  | none =>
    cases rest with
    | nil => rfl
    | cons c cs =>
      obtain ⟨-, -, small, capital⟩ := stops.of_head rfl
      simp [readExponent, small, capital]
  | @some e sign ds negative letter signed digits =>
    have power : (decide (e = 'e') || decide (e = 'E')) = true := by simpa using letter
    rw [List.cons_append, List.append_assoc, readExponent, if_pos power,
      readSign_append signed digits,
      someDigits_append digits fun c hc => (stops.of_head hc).1]
    rfl

theorem exponent_head {power rest : List Char} {exponent : Option (Bool × List Char)}
    (scaled : SpellsExponent power exponent) (stops : Stops rest) :
    ∀ c ∈ (power ++ rest).head?, ¬c.isDigit = true ∧ c ≠ '.' := by
  cases scaled with
  | none =>
    intro c hc
    obtain ⟨digit, point, -, -⟩ := stops.of_head hc
    exact ⟨digit, point⟩
  | some letter signed digits =>
    intro c hc
    cases hc
    rcases letter with rfl | rfl <;> decide

theorem fraction_head {point rest : List Char} {fraction : Option (List Char)}
    (fractional : SpellsFraction point fraction) (ends : ∀ c ∈ rest.head?, ¬c.isDigit = true) :
    ∀ c ∈ (point ++ rest).head?, ¬c.isDigit = true := by
  cases fractional with
  | none => exact ends
  | some digits =>
    intro c hc
    cases hc
    decide

/-- A numeral is read up to its end, which the next character does not continue. -/
theorem read_of_spells {cs rest : List Char} {n : Numeral} (h : SpellsNumeral cs n)
    (stops : Stops rest) : read (cs ++ rest) = .ok (n, rest) := by
  obtain ⟨signed, digits, zero, fractional, scaled⟩ := h
  rename_i sign whole point power negative fraction exponent
  have behind := exponent_head scaled stops
  have ends : ∀ c ∈ (power ++ rest).head?, ¬c.isDigit = true := fun c hc => (behind c hc).1
  have notPoint : ∀ c ∈ (power ++ rest).head?, c ≠ '.' := fun c hc => (behind c hc).2
  simp only [List.append_assoc]
  unfold read
  rw [readMinus_append signed digits]
  simp only [readWhole_append digits zero (fraction_head fractional ends),
    readFraction_append fractional notPoint ends, readExponent_append scaled stops, bind,
    Except.bind]

end Numeral

theorem tokens_nil : tokens [] = [] := by
  rw [tokens]

theorem tokens_blank {c : Char} (h : Blank c) (cs : List Char) : tokens (c :: cs) = tokens cs := by
  have space : Token.isSpace c = true := by
    rcases h with rfl | rfl | rfl | rfl <;> rfl
  rw [tokens, if_pos space]

theorem tokens_cons {c : Char} {cs rest : List Char} {t : Token}
    (space : Token.isSpace c = false) (h : Token.lexeme c cs = (t, some rest)) :
    tokens (c :: cs) = t :: tokens rest := by
  rw [tokens, if_neg (by simp [space])]
  split
  next h' =>
    rw [h] at h'
    cases h'
  next h' =>
    rw [h] at h'
    cases h'
    rfl

theorem Token.lexeme_numeral {c : Char} (h : c = '-' ∨ c.isDigit = true) (cs : List Char) :
    isSpace c = false ∧ lexeme c cs = ofNumeral (c :: cs) := by
  have other : ∀ d, d ≠ '-' → d.isDigit = false → c ≠ d := by
    intro d minus digit eq
    subst eq
    simp [minus, digit] at h
  have number : (decide (c = '-') || c.isDigit) = true := by simpa using h
  have punctuation : punctuation? c = none := by
    simp [punctuation?, other '[' (by decide) (by decide), other ']' (by decide) (by decide),
      other '{' (by decide) (by decide), other '}' (by decide) (by decide),
      other ',' (by decide) (by decide), other ':' (by decide) (by decide)]
  constructor
  · simp [isSpace, other ' ' (by decide) (by decide), other '\n' (by decide) (by decide),
      other '\t' (by decide) (by decide), other '\r' (by decide) (by decide)]
  · rw [lexeme, punctuation]
    simp only [other '"' (by decide) (by decide), other 'n' (by decide) (by decide),
      other 't' (by decide) (by decide), other 'f' (by decide) (by decide), if_false, number,
      if_true]

theorem numeral_head {cs : List Char} {n : Numeral} (h : SpellsNumeral cs n) :
    ∃ c tail, cs = c :: tail ∧ (c = '-' ∨ c.isDigit = true) := by
  obtain ⟨signed, digits, -, -, -⟩ := h
  rename_i sign whole point power negative fraction exponent
  cases signed with
  | minus => exact ⟨_, _, rfl, Or.inl rfl⟩
  | none =>
    cases whole with
    | nil => exact absurd rfl digits.1
    | cons d ds => exact ⟨_, _, rfl, Or.inr (digits.2 d (by simp))⟩

/-- A token that is spelled in front of a text is cut off it. -/
theorem tokens_of_spellsToken {word : List Char} {t : Token} (h : SpellsToken word t)
    (rest : List Char) : tokens (word ++ rest) = t :: tokens rest := by
  cases h with
  | openBracket | closeBracket | openBrace | closeBrace | comma | colon | null | true | false =>
    exact tokens_cons rfl rfl
  | string pieces =>
    have scanned := Spelling.scan_of_spells pieces rest
    rw [List.cons_append, List.append_assoc]
    apply tokens_cons rfl
    show Token.ofString _ = _
    simp [Token.ofString, scanned]

theorem tokens_of_spellsNumeral {word rest : List Char} {n : Numeral} (h : SpellsNumeral word n)
    (ends : Stops rest) : tokens (word ++ rest) = .number (.ok n) :: tokens rest := by
  obtain ⟨c, tail, rfl, first⟩ := numeral_head h
  obtain ⟨space, lexeme⟩ := Token.lexeme_numeral first (tail ++ rest)
  have read := Numeral.read_of_spells h ends
  rw [List.cons_append] at read ⊢
  apply tokens_cons space
  rw [lexeme, Token.ofNumeral, read]

/-- A text that spells tokens is cut into these tokens. -/
theorem tokens_of_spells {cs : List Char} {ts : List Token} (h : Spells cs ts) :
    tokens cs = ts := by
  induction h with
  | nil => exact tokens_nil
  | blank h _ ih => rw [tokens_blank h, ih]
  | token h _ ih => rw [tokens_of_spellsToken h, ih]
  | numeral h ends _ ih => rw [tokens_of_spellsNumeral h ends, ih]

end ModelDirectives.Json
