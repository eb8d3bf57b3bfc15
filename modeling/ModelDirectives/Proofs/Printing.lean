import ModelDirectives.Json.Pretty
import ModelDirectives.Proofs.KeyedLists
import ModelDirectives.Proofs.TreeReading

namespace ModelDirectives

namespace Decimal

theorem head_digits_ne_zero {n : Nat} (h : 0 < n) : '0' ∉ (digits n).head? := by
  have single : ∀ m < 10, 0 < m → '0' ∉ [Nat.digitChar m].head? := by decide
  induction n using Nat.strongRecOn with
  | _ n ih =>
    unfold digits
    rw [Nat.toDigits_eq_if (by decide)]
    split
    next small => exact single n small h
    next large =>
      have head := ih (n / 10) (by omega) (by omega)
      unfold digits at head
      rwa [List.head?_append_of_ne_nil _ Nat.toDigits_ne_nil]

/-- Only zero itself is written with a zero in front. -/
theorem digits_zero {n : Nat} {ds : List Char} (h : digits n = '0' :: ds) : ds = [] := by
  rcases Nat.eq_zero_or_pos n with rfl | positive
  · cases h
    rfl
  · exact absurd (by rw [h]; rfl) (head_digits_ne_zero positive)

end Decimal

namespace Json

namespace Numeral

open Decimal (digits digits_zero)

theorem spells_digits (n : Nat) : SpellsNumeral (digits n) ⟨false, digits n, none, none⟩ := by
  have some : Digits (digits n) :=
    ⟨Nat.toDigits_ne_nil, fun d hd => Nat.isDigit_of_mem_toDigits (by decide) (by decide) hd⟩
  have whole := SpellsNumeral.mk .none some (fun _ => digits_zero) .none .none
  simpa using whole

theorem le_ofDigitChars (n : Nat) (ds : List Char) : n ≤ Nat.ofDigitChars 10 ds n := by
  induction ds generalizing n with
  | nil => exact Nat.le_refl _
  | cons d ds ih =>
    have later := ih (10 * n + (d.toNat - '0'.toNat))
    rw [Nat.ofDigitChars_cons]
    omega

/-- A number within the limit takes up all of its digits. -/
theorem fill_of_le {n : Nat} {ds : List Char} (h : Nat.ofDigitChars 10 ds n ≤ limit) :
    fill n ds = (Nat.ofDigitChars 10 ds n, []) := by
  induction ds generalizing n with
  | nil => rfl
  | cons d ds ih =>
    rw [Nat.ofDigitChars_cons] at h ⊢
    have within := Nat.le_trans (le_ofDigitChars _ ds) h
    simp only [fill, within, if_true, ih h]

/-- Digits that are printed for a number are read as this number. -/
theorem number_digits {n : Nat} (h : n ≤ limit) :
    number ⟨false, digits n, none, none⟩ = .ok (.int n) := by
  have value : Nat.ofDigitChars 10 (digits n) 0 = n :=
    Nat.ofDigitChars_toDigits (by decide) (by decide)
  have filled : fill 0 (digits n) = _ := fill_of_le (by rwa [value])
  simp [number, filled, value, fill]

end Numeral

theorem Number.text_count (n : Nat) : text (.int n) = Decimal.digits n := by
  simp [text]

/-- The piece as which a character is printed. -/
def Piece.ofChar (c : Char) : Piece :=
  if 0x20 ≤ c.toNat ∨ c ∈ ['\n', '\r', '\t', '\x08', '\x0c'] then .char c else .unit c.toNat

def pieces (s : String) : List Piece :=
  s.toList.map Piece.ofChar

theorem means_pieces (s : String) : Means (pieces s) s.toList := by
  unfold pieces
  induction s.toList with
  | nil => exact .nil
  | cons c cs ih =>
    rw [List.map_cons, Piece.ofChar]
    split
    next => exact .char ih
    next => exact .unit ih

theorem hexDigit_digitChar {n : Nat} (h : n < 16) : HexDigit (Nat.digitChar n) n :=
  ⟨h, Or.inl rfl⟩

theorem spellsPieces_spelled (c : Char) {cs : List Char} {ps : List Piece}
    (rest : SpellsPieces cs ps) : SpellsPieces (spelled c ++ cs) (Piece.ofChar c :: ps) := by
  -- Characters with an escape of one letter, other control characters, and those that stand as
  -- they are.
  by_cases short : c ∈ ['"', '\\', '\n', '\r', '\t', '\x08', '\x0c']
  · simp only [List.mem_cons, List.not_mem_nil, or_false] at short
    rcases short with rfl | rfl | rfl | rfl | rfl | rfl | rfl <;>
      exact .short (by decide) rest
  · simp only [List.mem_cons, List.not_mem_nil, or_false, not_or] at short
    obtain ⟨quote, slash, hn, hr, ht, hb, hf⟩ := short
    simp only [spelled, quote, slash, hn, hr, ht, hb, hf, if_false]
    by_cases control : c.toNat < 0x20
    · have code : c.toNat = ((0 * 16 + 0) * 16 + c.toNat / 16) * 16 + c.toNat % 16 := by omega
      have piece : Piece.ofChar c =
          .unit (((0 * 16 + 0) * 16 + c.toNat / 16) * 16 + c.toNat % 16) := by
        rw [← code]
        simp [Piece.ofChar, hn, hr, ht, hb, hf, control]
      have zero : HexDigit '0' 0 := hexDigit_digitChar (n := 0) (by decide)
      rw [if_pos control, piece]
      exact .unit zero zero (hexDigit_digitChar (by omega)) (hexDigit_digitChar (by omega)) rest
    · have piece : Piece.ofChar c = .char c := if_pos (Or.inl (by omega))
      rw [if_neg control, piece]
      exact .plain quote slash (by omega) rest

theorem spellsPieces_pieces (s : String) : SpellsPieces (s.toList.flatMap spelled) (pieces s) := by
  unfold pieces
  induction s.toList with
  | nil => exact .nil
  | cons c cs ih => exact spellsPieces_spelled c ih

mutual

/-- The tree that a value is printed as. Its numbers have neither a sign nor a point. -/
def tree : Json → Tree
  | .null => .null
  | .bool flag => .bool flag
  | .number n => .number ⟨false, n.text, none, none⟩
  | .string s => .string (pieces s)
  | .array xs => .array (trees xs)
  | .object ms => .object (memberTrees ms)

def trees : List Json → List Tree
  | [] => []
  | x :: xs => x.tree :: trees xs

def memberTrees : List (String × Json) → List (List Piece × Tree)
  | [] => []
  | (k, v) :: ms => (pieces k, v.tree) :: memberTrees ms

end

mutual

/-- Values that stand for themselves when they are printed: numbers are whole and fit in 64 bits,
no object repeats a key, and lists and objects stand one in another at most so deep. -/
def Printable : Json → Nat → Prop
  | .null, _ | .bool _, _ | .string _, _ => True
  | .number n, _ => ∃ k ≤ Numeral.limit, n = .int k
  | .array xs, depth => 0 < depth ∧ AllPrintable xs (depth - 1)
  | .object ms, depth => 0 < depth ∧ (ms.map Prod.fst).Nodup ∧ MembersPrintable ms (depth - 1)

def AllPrintable : List Json → Nat → Prop
  | [], _ => True
  | x :: xs, depth => x.Printable depth ∧ AllPrintable xs depth

def MembersPrintable : List (String × Json) → Nat → Prop
  | [], _ => True
  | (_, v) :: ms, depth => v.Printable depth ∧ MembersPrintable ms depth

end

theorem allPrintable_iff {xs : List Json} {depth : Nat} :
    AllPrintable xs depth ↔ ∀ x ∈ xs, x.Printable depth := by
  induction xs with
  | nil => simp [AllPrintable]
  | cons x xs ih => rw [AllPrintable, ih, List.forall_mem_cons]

theorem printable_list {α : Type} {toJson : α → Json} {xs : List α} {depth : Nat}
    (h : ∀ x ∈ xs, (toJson x).Printable depth) : (array (xs.map toJson)).Printable (depth + 1) :=
  ⟨Nat.succ_pos depth, allPrintable_iff.mpr (List.forall_mem_map.mpr h)⟩

theorem membersPrintable_iff {ms : List (String × Json)} {depth : Nat} :
    MembersPrintable ms depth ↔ ∀ m ∈ ms, m.2.Printable depth := by
  induction ms with
  | nil => simp [MembersPrintable]
  | cons m ms ih => rw [MembersPrintable, ih, List.forall_mem_cons]

section Spelled

variable {cs : List Char} {ts : List Token}

theorem spells_quoted (s : String) (rest : Spells cs ts) :
    Spells (quoted s ++ cs) (.string (pieces s) .closed :: ts) :=
  .token (.string (spellsPieces_pieces s)) rest

theorem spells_word (flag : Bool) (rest : Spells cs ts) :
    Spells (word flag ++ cs) (.bool flag (.ok ()) :: ts) := by
  cases flag with
  | true => exact .token .true rest
  | false => exact .token .false rest

theorem spells_count {n : Number} (h : ∃ k ≤ Numeral.limit, n = .int k) (stops : Stops cs)
    (rest : Spells cs ts) :
    Spells (n.text ++ cs) (.number (.ok ⟨false, n.text, none, none⟩) :: ts) := by
  obtain ⟨k, -, rfl⟩ := h
  rw [Number.text_count]
  exact .numeral (Numeral.spells_digits k) stops rest

theorem spells_newLine (depth : Nat) (rest : Spells cs ts) : Spells (newLine depth ++ cs) ts := by
  have blanks : ∀ n, Spells (List.replicate n ' ' ++ cs) ts := by
    intro n
    induction n with
    | zero => exact rest
    | succ n ih => exact .blank (.inl rfl) ih
  exact .blank (.inr (.inl rfl)) (blanks _)

theorem stops_newLine (depth : Nat) (cs : List Char) : Stops (newLine depth ++ cs) :=
  Stops.cons (by decide) _

theorem stops_compactItems (xs : List Json) (stops : Stops cs) : Stops (compactItems xs ++ cs) := by
  cases xs with
  | nil => exact stops
  | cons x xs => exact Stops.cons (by decide) _

theorem stops_compactMembers (ms : List (String × Json)) (stops : Stops cs) :
    Stops (compactMembers ms ++ cs) := by
  cases ms with
  | nil => exact stops
  | cons m ms => exact Stops.cons (by decide) _

theorem stops_prettyItems (depth : Nat) (xs : List Json) (stops : Stops cs) :
    Stops (prettyItems depth xs ++ cs) := by
  cases xs with
  | nil => exact stops
  | cons x xs => exact Stops.cons (by decide) _

theorem stops_prettyMembers (depth : Nat) (ms : List (String × Json)) (stops : Stops cs) :
    Stops (prettyMembers depth ms ++ cs) := by
  cases ms with
  | nil => exact stops
  | cons m ms => exact Stops.cons (by decide) _

end Spelled

-- A numeral is cut off only in front of a text that cannot go on with it, so every step carries
-- along that what stands behind stops numerals.
mutual

/-- A compact text spells the tokens of its tree. By induction on the value, in front of any text
that cannot continue a numeral. -/
theorem spells_compact : (j : Json) → ∀ {depth : Nat} {cs : List Char} {ts : List Token},
    j.Printable depth → Stops cs → Spells cs ts → Spells (compact j ++ cs) (j.tree.tokens ++ ts)
  | .null, _, _, _, _, _, rest => .token .null rest
  | .bool flag, _, _, _, _, _, rest => spells_word flag rest
  | .number _, _, _, _, h, stops, rest => spells_count h stops rest
  | .string s, _, _, _, _, _, rest => spells_quoted s rest
  | .array [], _, _, _, _, _, rest => .mark .openBracket (.mark .closeBracket rest)
  | .object [], _, _, _, _, _, rest => .mark .openBrace (.mark .closeBrace rest)
  | .array (x :: xs), _, cs, _, h, _, rest => by
    have close : Stops (']' :: cs) := Stops.cons (by decide) _
    simp only [compact, tree, trees, Tree.tokens, Tree.itemTokens, separated, if_true,
      List.cons_append, List.append_assoc, List.nil_append]
    apply Spells.mark .openBracket
    apply spells_compact x h.2.1 (stops_compactItems xs close)
    apply spells_compactItems xs h.2.2 close
    exact .mark .closeBracket rest
  | .object ((k, v) :: ms), _, cs, _, h, _, rest => by
    have close : Stops ('}' :: cs) := Stops.cons (by decide) _
    simp only [compact, tree, memberTrees, Tree.tokens, Tree.memberTokens, separated, if_true,
      List.cons_append, List.append_assoc, List.nil_append]
    apply Spells.mark .openBrace
    apply spells_quoted k
    apply Spells.mark .colon
    apply spells_compact v h.2.2.1 (stops_compactMembers ms close)
    apply spells_compactMembers ms h.2.2.2 close
    exact .mark .closeBrace rest

theorem spells_compactItems : (xs : List Json) → ∀ {depth : Nat} {cs : List Char}
    {ts : List Token}, AllPrintable xs depth → Stops cs → Spells cs ts →
      Spells (compactItems xs ++ cs) (separated false (Tree.itemTokens (trees xs)) ++ ts)
  | [], _, _, _, _, _, rest => rest
  | x :: xs, _, _, _, h, stops, rest => by
    simp only [compactItems, trees, Tree.itemTokens, separated, Bool.false_eq_true, if_false,
      List.cons_append, List.append_assoc]
    apply Spells.mark .comma
    apply spells_compact x h.1 (stops_compactItems xs stops)
    exact spells_compactItems xs h.2 stops rest

theorem spells_compactMembers : (ms : List (String × Json)) → ∀ {depth : Nat} {cs : List Char}
    {ts : List Token}, MembersPrintable ms depth → Stops cs → Spells cs ts →
      Spells (compactMembers ms ++ cs) (separated false (Tree.memberTokens (memberTrees ms)) ++ ts)
  | [], _, _, _, _, _, rest => rest
  | (k, v) :: ms, _, _, _, h, stops, rest => by
    simp only [compactMembers, memberTrees, Tree.memberTokens, separated, Bool.false_eq_true,
      if_false, List.cons_append, List.append_assoc]
    apply Spells.mark .comma
    apply spells_quoted k
    apply Spells.mark .colon
    apply spells_compact v h.1 (stops_compactMembers ms stops)
    exact spells_compactMembers ms h.2 stops rest

end

mutual

/-- The blanks between the tokens are the only difference to the compact text. -/
theorem spells_pretty : (j : Json) → ∀ {depth : Nat} {cs : List Char} {ts : List Token}
    (indent : Nat), j.Printable depth → Stops cs → Spells cs ts →
      Spells (pretty indent j ++ cs) (j.tree.tokens ++ ts)
  | .null, _, _, _, _, _, _, rest => .token .null rest
  | .bool flag, _, _, _, _, _, _, rest => spells_word flag rest
  | .number _, _, _, _, _, h, stops, rest => spells_count h stops rest
  | .string s, _, _, _, _, _, _, rest => spells_quoted s rest
  | .array [], _, _, _, _, _, _, rest => .mark .openBracket (.mark .closeBracket rest)
  | .object [], _, _, _, _, _, _, rest => .mark .openBrace (.mark .closeBrace rest)
  | .array (x :: xs), _, cs, _, indent, h, _, rest => by
    have line := stops_newLine indent (']' :: cs)
    simp only [pretty, tree, trees, Tree.tokens, Tree.itemTokens, separated, if_true,
      List.cons_append, List.append_assoc, List.nil_append]
    apply Spells.mark .openBracket
    apply spells_newLine
    apply spells_pretty x _ h.2.1 (stops_prettyItems _ xs line)
    apply spells_prettyItems xs _ h.2.2 line
    apply spells_newLine
    exact .mark .closeBracket rest
  | .object ((k, v) :: ms), _, cs, _, indent, h, _, rest => by
    have line := stops_newLine indent ('}' :: cs)
    simp only [pretty, tree, memberTrees, Tree.tokens, Tree.memberTokens, separated, if_true,
      List.cons_append, List.append_assoc, List.nil_append]
    apply Spells.mark .openBrace
    apply spells_newLine
    apply spells_quoted k
    apply Spells.mark .colon
    apply Spells.blank (.inl rfl)
    apply spells_pretty v _ h.2.2.1 (stops_prettyMembers _ ms line)
    apply spells_prettyMembers ms _ h.2.2.2 line
    apply spells_newLine
    exact .mark .closeBrace rest

theorem spells_prettyItems : (xs : List Json) → ∀ {depth : Nat} {cs : List Char}
    {ts : List Token} (indent : Nat), AllPrintable xs depth → Stops cs → Spells cs ts →
      Spells (prettyItems indent xs ++ cs) (separated false (Tree.itemTokens (trees xs)) ++ ts)
  | [], _, _, _, _, _, _, rest => rest
  | x :: xs, _, _, _, _, h, stops, rest => by
    simp only [prettyItems, trees, Tree.itemTokens, separated, Bool.false_eq_true, if_false,
      List.cons_append, List.append_assoc]
    apply Spells.mark .comma
    apply spells_newLine
    apply spells_pretty x _ h.1 (stops_prettyItems _ xs stops)
    exact spells_prettyItems xs _ h.2 stops rest

theorem spells_prettyMembers : (ms : List (String × Json)) → ∀ {depth : Nat} {cs : List Char}
    {ts : List Token} (indent : Nat), MembersPrintable ms depth → Stops cs → Spells cs ts →
      Spells (prettyMembers indent ms ++ cs)
        (separated false (Tree.memberTokens (memberTrees ms)) ++ ts)
  | [], _, _, _, _, _, _, rest => rest
  | (k, v) :: ms, _, _, _, _, h, stops, rest => by
    simp only [prettyMembers, memberTrees, Tree.memberTokens, separated, Bool.false_eq_true,
      if_false, List.cons_append, List.append_assoc]
    apply Spells.mark .comma
    apply spells_newLine
    apply spells_quoted k
    apply Spells.mark .colon
    apply Spells.blank (.inl rfl)
    apply spells_pretty v _ h.1 (stops_prettyMembers _ ms stops)
    exact spells_prettyMembers ms _ h.2 stops rest

end

open Reader (TakesMember value)

mutual

/-- A tree is read as the value it was made for, if this is nested no deeper than allowed. -/
theorem takes_tree : (j : Json) → ∀ {depth : Nat}, j.Printable depth → Takes (value depth) j.tree j
  | .null, depth, _ => Reader.takes_null depth
  | .bool flag, depth, _ => Reader.takes_bool depth flag
  | .string s, depth, _ => Reader.takes_string depth (means_pieces s)
  | .number n, depth, h => by
    obtain ⟨k, fits, rfl⟩ := h
    rw [tree, Number.text_count]
    exact Reader.takes_number depth (Numeral.number_digits fits)
  | .array xs, 0, h => absurd h.1 (Nat.lt_irrefl 0)
  | .object ms, 0, h => absurd h.1 (Nat.lt_irrefl 0)
  | .array xs, depth + 1, h => Reader.takes_array (takes_trees xs h.2)
  | .object ms, depth + 1, h => by
    have takes := Reader.takes_object (takes_memberTrees ms h.2.2)
    rwa [collect_of_nodup h.2.1] at takes

theorem takes_trees : (xs : List Json) → ∀ {depth : Nat}, AllPrintable xs depth →
    List.Forall₂ (Takes (value depth)) (trees xs) xs
  | [], _, _ => .nil
  | x :: xs, _, h => .cons (takes_tree x h.1) (takes_trees xs h.2)

theorem takes_memberTrees : (ms : List (String × Json)) → ∀ {depth : Nat},
    MembersPrintable ms depth → List.Forall₂ (TakesMember (value depth)) (memberTrees ms) ms
  | [], _, _ => .nil
  | (k, v) :: ms, _, h => .cons ⟨means_pieces k, takes_tree v h.1⟩ (takes_memberTrees ms h.2)

end

theorem spells_compactText {j : Json} {depth : Nat} (h : j.Printable depth) :
    Spells j.compactText.toList j.tree.tokens := by
  have spells := spells_compact j h Stops.nil .nil
  rwa [List.append_nil, List.append_nil, ← String.toList_ofList (l := compact j)] at spells

/-- What is printed over several lines is read as the value, whatever blanks stand behind it. -/
theorem read_pretty {j : Json} (h : j.Printable maxDepth) {cs : List Char} (stops : Stops cs)
    (blank : Spells cs []) : read (String.ofList (pretty 0 j ++ cs)) = .ok j := by
  have spells := spells_pretty j 0 h stops blank
  rw [List.append_nil] at spells
  apply readAll_of_takes _ (takes_tree j h)
  rwa [String.toList_ofList]

end Json

end ModelDirectives
