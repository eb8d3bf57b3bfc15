import ModelDirectives.Json.Spelling
import ModelDirectives.Proofs.LineTexts
import ModelDirectives.Text.Quoted

namespace ModelDirectives.Text

/-- The number that hexadecimal digits stand for. -/
def hexValue (ds : List Char) : Nat :=
  ds.foldl (fun n d => n * 16 + (Json.Spelling.hexDigit? d).getD 0) 0

theorem hexValue_toDigits (n : Nat) : hexValue (Nat.toDigits 16 n) = n := by
  have digit : ∀ i < 16, (Json.Spelling.hexDigit? (Nat.digitChar i)).getD 0 = i := by decide
  induction n using Nat.strongRecOn with
  | _ n ih =>
    rw [Nat.toDigits_eq_if (by decide)]
    split
    next small => simp [hexValue, digit n small]
    next large =>
      have high := ih (n / 16) (Nat.div_lt_self (by omega) (by decide))
      have low := digit (n % 16) (Nat.mod_lt n (by decide))
      rw [hexValue, List.foldl_append, ← hexValue, high, List.foldl_cons, low, List.foldl_nil]
      omega

/-- The letters behind a backslash and the characters that they stand for. -/
def shortLetters : List (Char × Char) :=
  [('"', '"'), ('\\', '\\'), ('n', '\n'), ('r', '\r'), ('t', '\t'), ('0', '\x00')]

/-- The first character of a text between quotes and what is left of the text. The quote at the end
is no character of the text. -/
def unspelled : List Char → Option (Char × List Char)
  | '\\' :: 'u' :: '{' :: cs =>
    some (Char.ofNat (hexValue (cs.takeWhile (· != '}'))), (cs.dropWhile (· != '}')).tail)
  | '\\' :: letter :: cs => (shortLetters.find? (·.1 = letter)).map fun p => (p.2, cs)
  | c :: cs => if c = '"' then none else some (c, cs)
  | [] => none

theorem unspelled_codeEscape (c : Char) (cs : List Char) :
    unspelled (codeEscape c ++ cs) = some (c, cs) := by
  have digit : ∀ i < 16, (Nat.digitChar i != '}') = true := by decide
  have inside : ∀ d ∈ Nat.toDigits 16 c.toNat, (d != '}') = true := by
    intro d hd
    obtain ⟨i, hi, rfl⟩ := exists_of_mem_toDigits (by decide) hd
    exact digit i hi
  have stop : ¬('}' != '}') = true := by decide
  have text : codeEscape c ++ cs =
      '\\' :: 'u' :: '{' :: (Nat.toDigits 16 c.toNat ++ '}' :: cs) := by
    simp [codeEscape]
  rw [text, unspelled, List.takeWhile_append_of_pos inside,
    List.takeWhile_cons_of_neg (p := (· != '}')) stop, List.append_nil,
    List.dropWhile_append_of_pos inside, List.dropWhile_cons_of_neg (p := (· != '}')) stop,
    hexValue_toDigits, Char.ofNat_toNat, List.tail_cons]

/-- Of a spelled text the first character can be read off, whatever follows it. -/
theorem unspelled_spelled (c : Char) (cs : List Char) :
    unspelled (spelled c ++ cs) = some (c, cs) := by
  unfold spelled
  split_ifs with quote slash newline return' tab null
  · rw [quote]; rfl
  · rw [slash]; rfl
  · rw [newline]; rfl
  · rw [return']; rfl
  · rw [tab]; rfl
  · have zero : c = '\x00' := Char.ext (UInt32.toNat_inj.mp null)
    rw [zero]; rfl
  · exact unspelled_codeEscape c cs
  · show unspelled (c :: cs) = _
    rw [unspelled.eq_def]
    split <;> simp_all

/-- What is spelled between quotes, and where it ends, can be told from any text that begins so. -/
theorem spelled_inj {cs ds r s : List Char}
    (h : cs.flatMap spelled ++ '"' :: r = ds.flatMap spelled ++ '"' :: s) : cs = ds ∧ r = s := by
  induction cs generalizing ds with
  | nil =>
    cases ds with
    | nil => exact ⟨rfl, (List.cons.inj h).2⟩
    | cons d ds =>
      have first := congrArg unspelled h
      rw [List.flatMap_cons, List.append_assoc, unspelled_spelled] at first
      cases first
  | cons c cs ih =>
    cases ds with
    | nil =>
      have first := congrArg unspelled h
      rw [List.flatMap_cons, List.append_assoc, unspelled_spelled] at first
      cases first
    | cons d ds =>
      have first := congrArg unspelled h
      rw [List.flatMap_cons, List.flatMap_cons, List.append_assoc, List.append_assoc,
        unspelled_spelled, unspelled_spelled] at first
      obtain ⟨rfl, rest⟩ := Prod.mk.inj (Option.some.inj first)
      obtain ⟨rfl, same⟩ := ih rest
      exact ⟨rfl, same⟩

theorem quoted_append_inj {s t : String} {r r' : List Char}
    (h : (quoted s).toList ++ r = (quoted t).toList ++ r') : s = t ∧ r = r' := by
  simp only [quoted, String.toList_ofList, List.cons_append, List.append_assoc, List.nil_append,
    List.cons.injEq, true_and] at h
  obtain ⟨texts, behind⟩ := spelled_inj h
  exact ⟨String.toList_inj.mp texts, behind⟩

theorem quoted_inj {s t : String} (h : (quoted s).toList = (quoted t).toList) : s = t :=
  (quoted_append_inj (congrArg (· ++ []) h)).1

end ModelDirectives.Text
