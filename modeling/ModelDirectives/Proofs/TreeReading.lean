import ModelDirectives.Json.Reader
import ModelDirectives.Proofs.Skipping
import ModelDirectives.Proofs.Tokenizing
import Mathlib.Data.List.Forall2

namespace ModelDirectives.Json

variable {α : Type}

/-- A reader takes a tree for a value, whatever stands behind it. -/
def Takes (r : Reader α) (t : Tree) (x : α) : Prop :=
  ∀ rest, r (t.tokens ++ rest) = .ok (x, rest)

theorem length_le_separated (first : Bool) {gs : List (List Token)} (h : ∀ g ∈ gs, g ≠ []) :
    gs.length ≤ (separated first gs).length := by
  induction gs generalizing first with
  | nil => simp
  | cons g gs ih =>
    obtain ⟨here, later⟩ := List.forall_mem_cons.mp h
    have tail := ih false later
    have head := List.length_pos_iff.mpr here
    rw [separated, List.length_append, List.length_cons]
    cases first <;> simp only [Bool.false_eq_true, if_false, if_true, List.length_cons] <;> omega

namespace Tree

theorem itemTokens_eq_map (ts : List Tree) : itemTokens ts = ts.map tokens := by
  induction ts with
  | nil => rfl
  | cons t ts ih => rw [itemTokens, ih, List.map_cons]

theorem memberTokens_eq_map (ms : List (List Piece × Tree)) :
    memberTokens ms = ms.map fun m => .string m.1 .closed :: .colon :: m.2.tokens := by
  induction ms with
  | nil => rfl
  | cons m ms ih => rw [memberTokens, ih, List.map_cons]

theorem length_le_itemTokens (ts : List Tree) :
    ts.length ≤ (separated true (itemTokens ts)).length := by
  have same : ts.length = (ts.map tokens).length := List.length_map _ |>.symm
  rw [itemTokens_eq_map, same]
  apply length_le_separated
  intro g hg
  obtain ⟨t, -, rfl⟩ := List.mem_map.mp hg
  obtain ⟨u, us, eq, -⟩ := t.tokens_head
  simp [eq]

theorem length_le_memberTokens (ms : List (List Piece × Tree)) :
    ms.length ≤ (separated true (memberTokens ms)).length := by
  have same : ms.length = (memberTokens ms).length := by
    rw [memberTokens_eq_map, List.length_map]
  rw [same]
  apply length_le_separated
  rw [memberTokens_eq_map]
  intro g hg
  obtain ⟨m, -, rfl⟩ := List.mem_map.mp hg
  simp

end Tree

namespace Reader

theorem stringOf_of_means {ps : List Piece} {s : String} (h : Means ps s.toList) :
    Token.stringOf ps .closed = .ok s := by
  unfold Token.stringOf
  rw [Spelling.decode_of_means h]
  show Except.ok (String.ofList s.toList) = _
  rw [String.ofList_toList]

theorem takes_text (depth : Nat) {ps : List Piece} {s : String} (h : Means ps s.toList) :
    Takes (text depth) (.string ps) s := by
  intro rest
  rw [Tree.tokens]
  show (do .ok (← Token.stringOf ps .closed, rest)) = _
  rw [stringOf_of_means h]
  rfl

theorem takes_string (depth : Nat) {ps : List Piece} {s : String} (h : Means ps s.toList) :
    Takes (value depth) (.string ps) (.string s) := by
  intro rest
  rw [Tree.tokens, List.cons_append, value, stringOf_of_means h]
  rfl

theorem takes_null (depth : Nat) : Takes (value depth) .null .null := by
  intro rest
  rw [Tree.tokens, List.cons_append, value]
  rfl

theorem takes_bool (depth : Nat) (flag : Bool) : Takes (value depth) (.bool flag) (.bool flag) := by
  intro rest
  rw [Tree.tokens, List.cons_append, value]
  rfl

theorem takes_number (depth : Nat) {n : Numeral} {x : Number} (h : n.number = .ok x) :
    Takes (value depth) (.number n) (.number x) := by
  intro rest
  rw [Tree.tokens, List.cons_append, value, Token.numberOf, h]
  rfl

theorem key_of_means {ps : List Piece} {s : String} (h : Means ps s.toList) (ts : List Token) :
    key (.string ps .closed :: ts) = .ok (s, ts) := by
  rw [key, stringOf_of_means h]
  rfl

/-- The next key is read with the comma before it, if there has to be one. -/
theorem nextKey_of_means {ps : List Piece} {s : String} (h : Means ps s.toList) (first : Bool)
    (us ts : List Token) :
    nextKey first ((if first then .string ps .closed :: us else .comma :: .string ps .closed :: us)
      ++ ts) = .ok (.more s (us ++ ts)) := by
  cases first with
  | true =>
    show (key (.string ps .closed :: (us ++ ts)) >>= fun p => .ok (Turn.more p.1 p.2)) = _
    rw [key_of_means h]
    rfl
  | false =>
    show (key (.string ps .closed :: (us ++ ts)) >>= fun p => .ok (Turn.more p.1 p.2)) = _
    rw [key_of_means h]
    rfl

theorem choose_of_find? {known : List (String × α)} {label : String} {x : α}
    (h : known.find? (·.1 = label) = some (label, x)) : variant.choose known label = .ok x := by
  rw [variant.choose, h]

theorem takes_variant {known : List (String × α)} {label : String} {x : α} (depth : Nat)
    (h : known.find? (·.1 = label) = some (label, x)) {ps : List Piece}
    (named : Means ps label.toList) : Takes (variant known depth) (.string ps) x := by
  intro rest
  rw [Tree.tokens]
  show (do .ok (← variant.choose known (← Token.stringOf ps .closed), rest)) = _
  rw [stringOf_of_means named]
  show (do .ok (← variant.choose known label, rest)) = _
  rw [choose_of_find? h]
  rfl

/-- The name of a variant may also be the key of an object with nothing but a null. -/
theorem takes_variant_object {known : List (String × α)} {label : String} {x : α} (depth : Nat)
    (h : known.find? (·.1 = label) = some (label, x)) {ps : List Piece}
    (named : Means ps label.toList) :
    Takes (variant known (depth + 1)) (.object [(ps, .null)]) x := by
  intro rest
  have next := nextKey_of_means named true [.colon, .null (.ok ())] (.closeBrace :: rest)
  simp only [if_true, List.cons_append, List.nil_append] at next
  simp only [Tree.tokens, Tree.memberTokens, separated, if_true, List.cons_append, List.nil_append]
  rw [variant]
  simp only [next, choose_of_find? h, colon, unit, Token.wordOf, bind, Except.bind]

theorem nextItem_tokens (first : Bool) (t : Tree) (ts : List Token) :
    nextItem first ((if first then t.tokens else .comma :: t.tokens) ++ ts) =
      .ok (.more () (t.tokens ++ ts)) := by
  obtain ⟨u, us, eq, open'⟩ := t.tokens_head
  rw [eq]
  cases first with
  | true => cases u <;> first | rfl | exact absurd rfl open'
  | false => cases u <;> first | rfl | exact absurd rfl open'

/-- Every item takes one token of the bound, so the bound has to be longer than the items. -/
theorem itemsFrom_tokens {item : Reader α} {ts : List Tree} {xs : List α}
    (h : List.Forall₂ (Takes item) ts xs) (first : Bool) (bound rest : List Token)
    (long : ts.length < bound.length) :
    itemsFrom item bound first
      (separated first (Tree.itemTokens ts) ++ (.closeBracket :: rest)) = .ok (xs, rest) := by
  induction h generalizing first bound with
  | nil =>
    cases bound with
    | nil => simp at long
    | cons b bound => rfl
  | @cons t x ts xs here _ ih =>
    cases bound with
    | nil => simp at long
    | cons b bound =>
      have later := ih false bound (by simpa using long)
      rw [Tree.itemTokens, separated, List.append_assoc, itemsFrom, nextItem_tokens]
      simp only [here _, later, bind, Except.bind]

theorem takes_sequence {item : Nat → Reader α} {depth : Nat} {ts : List Tree} {xs : List α}
    (h : List.Forall₂ (Takes (item depth)) ts xs) :
    Takes (sequence item (depth + 1)) (.array ts) xs := by
  intro rest
  have short := Tree.length_le_itemTokens ts
  rw [Tree.tokens, List.cons_append, List.append_assoc, List.singleton_append, sequence]
  exact itemsFrom_tokens h true _ rest (by simp only [List.length_append, List.length_cons]; omega)

theorem takes_array {depth : Nat} {ts : List Tree} {xs : List Json}
    (h : List.Forall₂ (Takes (value depth)) ts xs) :
    Takes (value (depth + 1)) (.array ts) (.array xs) := by
  intro rest
  have short := Tree.length_le_itemTokens ts
  rw [Tree.tokens, List.cons_append, List.append_assoc, List.singleton_append, value, items,
    itemsFrom_tokens h true _ rest (by simp only [List.length_append, List.length_cons]; omega)]
  rfl

/-- A key in any spelling and a tree that is taken for the value. -/
def TakesMember (item : Reader α) (m : List Piece × Tree) (x : String × α) : Prop :=
  Means m.1 x.1.toList ∧ Takes item m.2 x.2

theorem membersFrom_tokens {item : Reader α} {ms : List (List Piece × Tree)}
    {xs : List (String × α)} (h : List.Forall₂ (TakesMember item) ms xs) (first : Bool)
    (bound rest : List Token) (long : ms.length < bound.length) :
    membersFrom item bound first
      (separated first (Tree.memberTokens ms) ++ (.closeBrace :: rest)) = .ok (xs, rest) := by
  induction h generalizing first bound with
  | nil =>
    cases bound with
    | nil => simp at long
    | cons b bound => rfl
  | @cons m x ms xs here _ ih =>
    cases bound with
    | nil => simp at long
    | cons b bound =>
      obtain ⟨named, takes⟩ := here
      have later := ih false bound (by simpa using long)
      rw [Tree.memberTokens, separated, List.append_assoc, membersFrom, nextKey_of_means named]
      simp only [List.cons_append, colon, takes _, later, bind, Except.bind]

theorem members_tokens {item : Reader α} {ms : List (List Piece × Tree)} {xs : List (String × α)}
    (h : List.Forall₂ (TakesMember item) ms xs) (rest : List Token) :
    members item (separated true (Tree.memberTokens ms) ++ (.closeBrace :: rest)) =
      .ok (xs, rest) := by
  have short := Tree.length_le_memberTokens ms
  exact membersFrom_tokens h true _ rest
    (by simp only [List.length_append, List.length_cons]; omega)

/-- Of members under one key the last one counts, at the position of the first. -/
theorem takes_mapping {depth : Nat} {ms : List (List Piece × Tree)} {xs : List (String × Json)}
    (h : List.Forall₂ (TakesMember (value depth)) ms xs) :
    Takes (mapping (depth + 1)) (.object ms) (collect xs) := by
  intro rest
  rw [Tree.tokens, List.cons_append, List.append_assoc, List.singleton_append, mapping,
    members_tokens h]
  rfl

theorem takes_object {depth : Nat} {ms : List (List Piece × Tree)} {xs : List (String × Json)}
    (h : List.Forall₂ (TakesMember (value depth)) ms xs) :
    Takes (value (depth + 1)) (.object ms) (.object (collect xs)) := by
  intro rest
  rw [Tree.tokens, List.cons_append, List.append_assoc, List.singleton_append, value,
    members_tokens h]
  rfl

end Reader

/-- A text that spells a tree is read as what the tree is taken for. -/
theorem readAll_of_takes {reader : Nat → Reader α} {s : String} {t : Tree} {x : α}
    (spells : Spells s.toList t.tokens) (takes : Takes (reader maxDepth) t x) :
    readAll reader s = .ok x := by
  have whole := takes []
  rw [List.append_nil] at whole
  rw [readAll, tokens_of_spells spells, whole]
  rfl

end ModelDirectives.Json
