import Mathlib.Tactic.SplitIfs
import ModelDirectives.Identifier
import ModelDirectives.Json.Compact
import ModelDirectives.Proofs.Acceptable

namespace ModelDirectives

/-- None of the characters is a control character of ASCII. -/
def OneLine (cs : List Char) : Prop :=
  ∀ c ∈ cs, 0x20 ≤ c.toNat

instance : DecidablePred OneLine :=
  List.decidableBAll fun c : Char => 0x20 ≤ c.toNat

namespace OneLine

@[simp]
theorem nil : OneLine [] := by
  simp [OneLine]

@[simp]
theorem cons_iff {c : Char} {cs : List Char} : OneLine (c :: cs) ↔ 0x20 ≤ c.toNat ∧ OneLine cs :=
  List.forall_mem_cons

@[simp]
theorem append_iff {cs ds : List Char} : OneLine (cs ++ ds) ↔ OneLine cs ∧ OneLine ds :=
  List.forall_mem_append

theorem flatMap {f : Char → List Char} (h : ∀ c, OneLine (f c)) (cs : List Char) :
    OneLine (cs.flatMap f) :=
  List.forall_mem_flatMap.mpr fun c _ => h c

theorem of_subset {cs ds : List Char} (h : OneLine ds) (sub : cs ⊆ ds) : OneLine cs :=
  fun c hc => h c (sub hc)

end OneLine

theorem IsIdentifier.code_bounds {name : String} (h : IsIdentifier name) :
    ∀ c ∈ name.toList, 0x20 ≤ c.toNat ∧ c.toNat < 0x80 := by
  intro c hc
  have allowed := h.2.1 c hc
  simp only [Char.le_def, UInt32.le_iff_toNat_le] at allowed
  rcases allowed with upper | lower | digit | rfl
  · exact ⟨Nat.le_trans (by decide) upper.1, Nat.lt_of_le_of_lt upper.2 (by decide)⟩
  · exact ⟨Nat.le_trans (by decide) lower.1, Nat.lt_of_le_of_lt lower.2 (by decide)⟩
  · exact ⟨Nat.le_trans (by decide) digit.1, Nat.lt_of_le_of_lt digit.2 (by decide)⟩
  · decide

theorem IsIdentifier.oneLine {name : String} (h : IsIdentifier name) : OneLine name.toList :=
  fun c hc => (h.code_bounds c hc).1

theorem exists_of_mem_toDigits {base : Nat} (low : 1 < base) {n : Nat} {d : Char}
    (h : d ∈ Nat.toDigits base n) : ∃ i < base, d = Nat.digitChar i := by
  induction n using Nat.strongRecOn with
  | _ n ih =>
    rw [Nat.toDigits_eq_if low] at h
    split at h
    next small => exact ⟨n, small, List.mem_singleton.mp h⟩
    next large =>
      rcases List.mem_append.mp h with earlier | last
      · exact ih (n / base) (Nat.div_lt_self (by omega) low) earlier
      · exact ⟨n % base, Nat.mod_lt n (by omega), List.mem_singleton.mp last⟩

/-- The digits of a number in a base up to sixteen. -/
theorem oneLine_toDigits {base : Nat} (low : 1 < base) (high : base ≤ 16) (n : Nat) :
    OneLine (Nat.toDigits base n) := by
  have printable : ∀ i < 16, 0x20 ≤ (Nat.digitChar i).toNat := by decide
  intro d hd
  obtain ⟨i, hi, rfl⟩ := exists_of_mem_toDigits low hd
  exact printable i (by omega)

theorem Decimal.oneLine_digits (n : Nat) : OneLine (digits n) :=
  oneLine_toDigits (by decide) (by decide) n

theorem Decimal.oneLine_text (n : Nat) : OneLine (text n).toList := by
  rw [text, String.toList_ofList]
  exact oneLine_digits n

namespace Text

/-- Control characters are among the hidden ones, and so are spelled out in quotes. -/
theorem isHidden_of_control {c : Char} (h : c.toNat < 0x20) : isHidden c = true := by
  have first : ∃ later, hiddenRanges = (0x0, 0x1f) :: later := ⟨_, rfl⟩
  obtain ⟨later, eq⟩ := first
  have inside : c.toNat ≤ 0x1f := by omega
  simp [isHidden, eq, within, inside]

theorem oneLine_codeEscape (c : Char) : OneLine (codeEscape c) := by
  simp [codeEscape, oneLine_toDigits]

theorem oneLine_spelled (c : Char) : OneLine (spelled c) := by
  unfold spelled
  split_ifs with _ _ _ _ _ _ shown
  iterate 6 decide
  · exact oneLine_codeEscape c
  · -- A character stands as it is only when it is shown, which a control character is not.
    have visible : ¬c.toNat < 0x20 := fun control => shown (by simp [isHidden_of_control control])
    simpa using visible

/-- A text between double quotes keeps to a line, whatever it holds. -/
theorem oneLine_quoted (s : String) : OneLine (quoted s).toList := by
  simp [quoted, OneLine.flatMap oneLine_spelled]

end Text

namespace Json

theorem oneLine_spelled (c : Char) : OneLine (spelled c) := by
  unfold spelled
  split_ifs with _ _ _ _ _ _ _ control
  iterate 7 decide
  · have low : ∀ n < 0x20, OneLine
        ['\\', 'u', '0', '0', Nat.digitChar (n / 16), Nat.digitChar (n % 16)] := by decide
    exact low _ control
  · simpa using control

theorem oneLine_quoted (s : String) : OneLine (quoted s) := by
  simp [quoted, OneLine.flatMap oneLine_spelled]

namespace Number

theorem oneLine_exponential {ds : List Char} (h : OneLine ds) (e : Int) :
    OneLine (written.exponential ds e) := by
  have first : OneLine (ds.take 1) := h.of_subset (List.take_subset ..)
  have others : OneLine ds.tail := h.of_subset (List.tail_sublist ds).subset
  have power := Decimal.oneLine_digits e.natAbs
  unfold written.exponential
  split_ifs <;> simp [first, others, power]

theorem oneLine_written (d : Decimal.Scaled) : OneLine (written d) := by
  have digits := Decimal.oneLine_digits d.coefficient
  have zeros : ∀ n, OneLine (List.replicate n '0') := fun n c hc => by
    rw [List.eq_of_mem_replicate hc]
    decide
  unfold written
  extract_lets ds point
  have front : OneLine (ds.take point.toNat) := digits.of_subset (List.take_subset ..)
  have back : OneLine (ds.drop point.toNat) := digits.of_subset (List.drop_subset ..)
  split_ifs
  · exact oneLine_exponential digits _
  · simp [zeros, ds, digits]
  · simp [front, back]
  · simp [zeros, ds, digits]
  · exact oneLine_exponential digits _

theorem oneLine_text (n : Number) : OneLine n.text := by
  unfold text
  split
  next n =>
    have digits := Decimal.oneLine_digits n.natAbs
    split_ifs <;> simp [digits]
  next x =>
    extract_lets bits magnitude shown
    have positive : OneLine shown := by
      unfold shown
      split_ifs
      · decide
      · exact oneLine_written _
    split_ifs <;> simp [positive]

end Number

theorem oneLine_word (flag : Bool) : OneLine (word flag) := by
  cases flag <;> decide

mutual

/-- However deep a value is nested, it is printed on one line. -/
theorem oneLine_compact : ∀ j : Json, OneLine (compact j)
  | .null => by simp [compact]
  | .bool flag => oneLine_word flag
  | .number n => n.oneLine_text
  | .string s => oneLine_quoted s
  | .array [] => by simp [compact]
  | .array (x :: xs) => by simp [compact, oneLine_compact x, oneLine_compactItems xs]
  | .object [] => by simp [compact]
  | .object ((k, v) :: ms) => by
    simp [compact, oneLine_quoted k, oneLine_compact v, oneLine_compactMembers ms]

theorem oneLine_compactItems : ∀ xs : List Json, OneLine (compactItems xs)
  | [] => .nil
  | x :: xs => by simp [compactItems, oneLine_compact x, oneLine_compactItems xs]

theorem oneLine_compactMembers : ∀ ms : List (String × Json), OneLine (compactMembers ms)
  | [] => .nil
  | (k, v) :: ms => by
    simp [compactMembers, oneLine_quoted k, oneLine_compact v, oneLine_compactMembers ms]

end

/-- A value in the text of a message keeps to a line. -/
theorem oneLine_compactText (j : Json) : OneLine j.compactText.toList := by
  rw [compactText, String.toList_ofList]
  exact oneLine_compact j

end Json

end ModelDirectives
