import Mathlib.Data.List.DropRight
import Mathlib.Data.List.Forall2
import ModelDirectives.Text.Blank

namespace ModelDirectives

namespace Text

/-- Characters with no blank at either end. -/
def Bare (cs : List Char) : Prop :=
  (∀ c ∈ cs.head?, ¬isBlank c) ∧ ∀ c ∈ cs.getLast?, ¬isBlank c

instance : DecidablePred Bare := fun cs =>
  @instDecidableAnd _ _ (Option.decidableForallMem cs.head?)
    (Option.decidableForallMem cs.getLast?)

/-- What remains of characters when all blanks at both ends are taken off. -/
def Strips (cs rest : List Char) : Prop :=
  Bare rest ∧ ∃ before after, cs = before ++ rest ++ after ∧
    (∀ c ∈ before, isBlank c) ∧ ∀ c ∈ after, isBlank c

section Trimming

variable {cs blanks : List Char}

theorem trimmed_eq_rdropWhile (cs : List Char) :
    trimmed cs = (cs.dropWhile isBlank).rdropWhile isBlank :=
  rfl

theorem trimmed_blank_append (h : ∀ c ∈ blanks, isBlank c) (cs : List Char) :
    trimmed (blanks ++ cs) = trimmed cs := by
  rw [trimmed, trimmed, List.dropWhile_append_of_pos h]

theorem trimmed_of_blank (h : ∀ c ∈ blanks, isBlank c) : trimmed blanks = [] := by
  rw [trimmed_eq_rdropWhile, List.dropWhile_eq_nil_iff.mpr h, List.rdropWhile_nil]

theorem trimmed_append_blank (h : ∀ c ∈ blanks, isBlank c) (cs : List Char) :
    trimmed (cs ++ blanks) = trimmed cs := by
  by_cases all : ∀ c ∈ cs, isBlank c
  · rw [trimmed_blank_append all, trimmed_of_blank h, trimmed_of_blank all]
  · have some : (cs.dropWhile isBlank).isEmpty = false := by
      rwa [List.isEmpty_eq_false_iff, ne_eq, List.dropWhile_eq_nil_iff]
    have ending : ∀ c ∈ blanks.reverse, isBlank c := fun c hc => h c (List.mem_reverse.mp hc)
    rw [trimmed, List.dropWhile_append, some, if_neg Bool.false_ne_true, List.reverse_append,
      List.dropWhile_append_of_pos ending]
    rfl

theorem trimmed_of_bare (h : Bare cs) : trimmed cs = cs := by
  obtain ⟨first, last⟩ := h
  have start : cs.dropWhile isBlank = cs := List.dropWhile_eq_self_iff.mpr fun hl =>
    first _ (List.head?_eq_getElem? ▸ List.getElem?_eq_getElem hl)
  have ending : cs.rdropWhile isBlank = cs := List.rdropWhile_eq_self_iff.mpr fun hl =>
    last _ (List.getLast?_eq_some_getLast hl)
  rw [trimmed_eq_rdropWhile, start, ending]

theorem bare_trimmed (cs : List Char) : Bare (trimmed cs) := by
  rw [trimmed_eq_rdropWhile]
  generalize hd : cs.dropWhile isBlank = ds
  constructor
  · intro c hc
    -- What is taken off the end leaves the first character where it is.
    obtain ⟨rest, eq⟩ := List.head?_eq_some_iff.mp hc
    obtain ⟨ending, whole⟩ := List.rdropWhile_prefix isBlank ds
    have here : ds.head? = some c := by rw [← whole, eq]; rfl
    have first := List.head?_dropWhile_not isBlank cs
    rw [hd, here] at first
    simpa using first
  · intro c hc
    obtain ⟨some, rfl⟩ := List.mem_getLast?_eq_getLast hc
    exact List.rdropWhile_last_not isBlank ds some

theorem strips_trimmed (cs : List Char) : Strips cs (trimmed cs) := by
  refine ⟨bare_trimmed cs, cs.takeWhile isBlank, (cs.dropWhile isBlank).rtakeWhile isBlank, ?_,
    fun c hc => List.mem_takeWhile_imp hc, fun c hc => List.mem_rtakeWhile_imp hc⟩
  rw [trimmed_eq_rdropWhile, List.append_assoc, List.rdropWhile_append_rtakeWhile,
    List.takeWhile_append_dropWhile]

end Trimming

end Text

namespace Context

open Text (Bare Strips isBlank trimmed)

section Pieces

/-- Every text is a piece without a comma, or such a piece with a comma and some text behind it. -/
theorem piece_induction {motive : List Char → Prop} (last : ∀ p, ',' ∉ p → motive p)
    (further : ∀ p cs, ',' ∉ p → motive cs → motive (p ++ ',' :: cs)) (cs : List Char) :
    motive cs := by
  induction hn : cs.length using Nat.strongRecOn generalizing cs with
  | _ n ih =>
    by_cases some : ',' ∈ cs
    · obtain ⟨p, rest, rfl, free⟩ := List.eq_append_cons_of_mem some
      have shorter : rest.length < n := by
        rw [← hn, List.length_append, List.length_cons]
        omega
      exact further p rest free (ih _ shorter rest rfl)
    · exact last cs some

variable {cs p blanks : List Char}

theorem comma_not_mem_of_mem_splitOn (h : p ∈ cs.splitOn ',') : ',' ∉ p := by
  induction cs using piece_induction with
  | last q free =>
    rw [List.splitOn_eq_singleton free, List.mem_singleton] at h
    rwa [h]
  | further q cs free ih =>
    rw [List.splitOn_append_cons_self_of_not_mem free, List.mem_cons] at h
    rcases h with rfl | later
    · exact free
    · exact ih later

theorem length_splitOn (cs : List Char) : (cs.splitOn ',').length = cs.count ',' + 1 := by
  induction cs using piece_induction with
  | last p free =>
    rw [List.splitOn_eq_singleton free, List.count_eq_zero_of_not_mem free, List.length_singleton]
  | further p cs free ih =>
    rw [List.splitOn_append_cons_self_of_not_mem free, List.length_cons, ih, List.count_append,
      List.count_cons_self, List.count_eq_zero_of_not_mem free, Nat.zero_add]

/-- The pieces between the commas, without the blanks at their ends. -/
def trimmedPieces (cs : List Char) : List (List Char) :=
  (cs.splitOn ',').map trimmed

/-- A comma divides a text into texts that are split independently of one another. -/
theorem trimmedPieces_append_comma (cs ds : List Char) :
    trimmedPieces (cs ++ ',' :: ds) = trimmedPieces cs ++ trimmedPieces ds := by
  rw [trimmedPieces, List.splitOn_append_cons_self, List.map_append]
  rfl

theorem comma_not_mem_of_blank (h : ∀ c ∈ blanks, isBlank c) : ',' ∉ blanks := fun hc =>
  absurd (h ',' hc) (by decide)

theorem trimmedPieces_of_not_mem (free : ',' ∉ p) : trimmedPieces p = [trimmed p] := by
  rw [trimmedPieces, List.splitOn_eq_singleton free, List.map_singleton]

theorem trimmedPieces_blank_append (h : ∀ c ∈ blanks, isBlank c) (cs : List Char) :
    trimmedPieces (blanks ++ cs) = trimmedPieces cs := by
  have joined : ∀ p, ',' ∉ p → trimmedPieces (blanks ++ p) = trimmedPieces p := by
    intro p free
    have both : ',' ∉ blanks ++ p := by simp [comma_not_mem_of_blank h, free]
    rw [trimmedPieces_of_not_mem both, trimmedPieces_of_not_mem free, Text.trimmed_blank_append h]
  induction cs using piece_induction with
  | last p free => exact joined p free
  | further p cs free _ =>
    rw [← List.append_assoc, trimmedPieces_append_comma, trimmedPieces_append_comma, joined p free]

theorem trimmedPieces_append_blank (h : ∀ c ∈ blanks, isBlank c) (cs : List Char) :
    trimmedPieces (cs ++ blanks) = trimmedPieces cs := by
  induction cs using piece_induction with
  | last p free =>
    have both : ',' ∉ p ++ blanks := by simp [comma_not_mem_of_blank h, free]
    rw [trimmedPieces_of_not_mem both, trimmedPieces_of_not_mem free, Text.trimmed_append_blank h]
  | further p cs free ih =>
    rw [List.append_assoc, List.cons_append, trimmedPieces_append_comma,
      trimmedPieces_append_comma, ih]

end Pieces

section Splitting

variable {s : String} {tokens : List String}

theorem split_of_blank (h : ∀ c ∈ s.toList, isBlank c) : split s = [] :=
  if_pos (List.all_eq_true.mpr h)

theorem split_of_not_blank (h : ¬∀ c ∈ s.toList, isBlank c) :
    split s = (trimmedPieces s.toList).map String.ofList := by
  have stands : ¬Text.blank s = true := fun blank => h (List.all_eq_true.mp blank)
  rw [split, if_neg stands, trimmedPieces, List.map_map]
  rfl

theorem not_blank_of_comma (h : ',' ∈ s.toList) : ¬∀ c ∈ s.toList, isBlank c := fun blank =>
  comma_not_mem_of_blank blank h

/-- The lists that are read off contexts. A single empty token is none of them: a text with nothing
in it lists nothing. -/
def Listed (tokens : List String) : Prop :=
  (∀ t ∈ tokens, ',' ∉ t.toList ∧ Bare t.toList) ∧ tokens ≠ [""]

instance : DecidablePred Listed := fun tokens =>
  inferInstanceAs
    (Decidable ((∀ t ∈ tokens, ',' ∉ t.toList ∧ Bare t.toList) ∧ tokens ≠ [""]))

/-- Whatever is split off bears no comma and no blank at its ends. -/
theorem listed_split (s : String) : Listed (split s) := by
  by_cases blank : ∀ c ∈ s.toList, isBlank c
  · rw [split_of_blank blank]
    exact ⟨List.forall_mem_nil _, nofun⟩
  · rw [split_of_not_blank blank]
    constructor
    · intro t ht
      obtain ⟨ts, hts, rfl⟩ := List.mem_map.mp ht
      obtain ⟨p, hp, rfl⟩ := List.mem_map.mp hts
      obtain ⟨bare, before, after, whole, -, -⟩ := Text.strips_trimmed p
      rw [String.toList_ofList]
      refine ⟨fun comma => comma_not_mem_of_mem_splitOn hp ?_, bare⟩
      rw [whole]
      exact List.mem_append_left _ (List.mem_append_right _ comma)
    · intro single
      -- A single piece is the whole text, and it is not blank.
      have one : (trimmedPieces s.toList).length = 1 := by
        rw [← List.length_map String.ofList, single, List.length_singleton]
      have free : ',' ∉ s.toList := by
        rw [trimmedPieces, List.length_map, length_splitOn] at one
        exact List.count_eq_zero.mp (by omega)
      rw [trimmedPieces_of_not_mem free, List.map_singleton, List.singleton_inj,
        String.ofList_eq_empty_iff] at single
      obtain ⟨-, before, after, whole, front, back⟩ := Text.strips_trimmed s.toList
      rw [single, List.append_nil] at whole
      exact blank (whole ▸ List.forall_mem_append.mpr ⟨front, back⟩)

theorem not_blank_of_listed (listed : Listed tokens) (some : tokens ≠ []) :
    ¬∀ c ∈ (",".intercalate tokens).toList, isBlank c := by
  match tokens, some with
  | [t], _ =>
    have nonempty : t.toList ≠ [] := fun empty =>
      listed.2 (by rw [String.toList_eq_nil_iff.mp empty])
    obtain ⟨c, cs, eq⟩ := List.exists_cons_of_ne_nil nonempty
    have bare := (listed.1 t List.mem_cons_self).2.1 c (by rw [eq]; rfl)
    intro blank
    rw [String.intercalate_singleton, eq] at blank
    exact bare (blank c List.mem_cons_self)
  | t :: u :: rest, _ =>
    apply not_blank_of_comma
    simp [String.toList_intercalate]

theorem splitOn_intercalate (some : tokens ≠ []) (free : ∀ t ∈ tokens, ',' ∉ t.toList) :
    (",".intercalate tokens).toList.splitOn ',' = tokens.map String.toList := by
  rw [String.toList_intercalate]
  exact List.splitOn_intercalate ',' (List.forall_mem_map.mpr free) (by simpa using some)

/-- Joining such tokens with commas and splitting again gives them back. -/
theorem split_intercalate (listed : Listed tokens) :
    split (",".intercalate tokens) = tokens := by
  by_cases some : tokens = []
  · rw [some]
    rfl
  · have pieces := splitOn_intercalate some fun t ht => (listed.1 t ht).1
    rw [split_of_not_blank (not_blank_of_listed listed some), trimmedPieces, pieces, List.map_map,
      List.map_map]
    refine (List.map_congr_left fun t ht => ?_).trans (List.map_id tokens)
    show String.ofList (trimmed t.toList) = t
    rw [Text.trimmed_of_bare (listed.1 t ht).2, String.ofList_toList]

/-- Each token is what remains of its piece. -/
theorem split_strips_pieces (h : ¬∀ c ∈ s.toList, isBlank c) :
    List.Forall₂ (fun p (t : String) => Strips p t.toList) (s.toList.splitOn ',') (split s) := by
  rw [split_of_not_blank h, List.forall₂_map_right_iff, trimmedPieces,
    List.forall₂_map_right_iff, List.forall₂_same]
  intro p _
  rw [String.toList_ofList]
  exact Text.strips_trimmed p

theorem length_split (h : ¬∀ c ∈ s.toList, isBlank c) :
    (split s).length = s.toList.count ',' + 1 := by
  rw [← (split_strips_pieces h).length_eq, length_splitOn]

theorem split_between_blanks (s : String) {front back : String}
    (hfront : ∀ c ∈ front.toList, isBlank c) (hback : ∀ c ∈ back.toList, isBlank c) :
    split (front ++ s ++ back) = split s := by
  have same : (∀ c ∈ (front ++ s ++ back).toList, isBlank c) ↔ ∀ c ∈ s.toList, isBlank c := by
    simp only [String.toList_append, List.forall_mem_append]
    exact ⟨fun all => all.1.2, fun blank => ⟨⟨hfront, blank⟩, hback⟩⟩
  by_cases blank : ∀ c ∈ s.toList, isBlank c
  · rw [split_of_blank blank, split_of_blank (same.mpr blank)]
  · rw [split_of_not_blank blank, split_of_not_blank fun all => blank (same.mp all),
      String.toList_append, String.toList_append, trimmedPieces_append_blank hback,
      trimmedPieces_blank_append hfront]

theorem split_at_comma (before after : String) :
    split (before ++ "," ++ after) =
      (trimmedPieces before.toList ++ trimmedPieces after.toList).map String.ofList := by
  have whole : (before ++ "," ++ after).toList = before.toList ++ ',' :: after.toList := by simp
  have stands : ¬∀ c ∈ (before ++ "," ++ after).toList, isBlank c := by
    apply not_blank_of_comma
    rw [whole]
    exact List.mem_append_right _ List.mem_cons_self
  rw [split_of_not_blank stands, whole, trimmedPieces_append_comma]

theorem split_blanks_at_comma (before after : String) {left right : String}
    (hleft : ∀ c ∈ left.toList, isBlank c) (hright : ∀ c ∈ right.toList, isBlank c) :
    split (before ++ left ++ "," ++ (right ++ after)) = split (before ++ "," ++ after) := by
  rw [split_at_comma, split_at_comma, String.toList_append, String.toList_append,
    trimmedPieces_append_blank hleft, trimmedPieces_blank_append hright]

end Splitting

/-- A blank text lists nothing, and any other one lists the pieces between its commas without the
blanks around them. What is listed is listed again by the tokens joined by commas, and blanks at the
ends and next to a comma change nothing. -/
theorem split_undoes_joining (s : String) :
    ((∀ c ∈ s.toList, isBlank c) → split s = []) ∧
    ((¬∀ c ∈ s.toList, isBlank c) → (split s).length = s.toList.count ',' + 1 ∧
      ∃ pieces : List (List Char), [','].intercalate pieces = s.toList ∧
        (∀ p ∈ pieces, ',' ∉ p) ∧
        List.Forall₂ (fun p (t : String) => Strips p t.toList) pieces (split s)) ∧
    (∀ tokens, (∃ raw, split raw = tokens) ↔ Listed tokens) ∧
    (∀ tokens, Listed tokens → split (",".intercalate tokens) = tokens) ∧
    split (",".intercalate (split s)) = split s ∧
    (∀ front back : String, (∀ c ∈ front.toList, isBlank c) → (∀ c ∈ back.toList, isBlank c) →
      split (front ++ s ++ back) = split s) ∧
    ∀ before after left right : String, s = before ++ "," ++ after →
      (∀ c ∈ left.toList, isBlank c) → (∀ c ∈ right.toList, isBlank c) →
        split (before ++ left ++ "," ++ (right ++ after)) = split s := by
  refine ⟨split_of_blank, fun stands => ⟨length_split stands, s.toList.splitOn ',', ?_⟩, ?_,
    fun _ => split_intercalate, split_intercalate (listed_split s),
    fun _ _ => split_between_blanks s, ?_⟩
  · exact ⟨List.intercalate_splitOn ',', fun p hp => comma_not_mem_of_mem_splitOn hp,
      split_strips_pieces stands⟩
  · intro tokens
    constructor
    · intro h
      obtain ⟨raw, rfl⟩ := h
      exact listed_split raw
    · intro listed
      exact ⟨_, split_intercalate listed⟩
  · intro before after left right whole hleft hright
    rw [whole]
    exact split_blanks_at_comma before after hleft hright

theorem split_undoes_joining_spaced :
    (∀ c ∈ "\t \u3000".toList, isBlank c) ∧ split "\t \u3000" = [] ∧
      (¬∀ c ∈ "list , get,".toList, isBlank c) ∧ split "list , get," = ["list", "get", ""] ∧
      (split "list , get,").length = 3 ∧ Listed ["list", "get", ""] ∧
      split "list,get," = ["list", "get", ""] ∧
      split ("\t " ++ "list , get," ++ "\n") = split "list , get," ∧
      split ("list " ++ "\u3000" ++ "," ++ ("\t" ++ " get,")) = split "list , get," := by
  have ofAll : ∀ {cs : List Char}, cs.all isBlank = true → ∀ c ∈ cs, isBlank c :=
    List.all_eq_true.mp
  have blank : ∀ c ∈ "\t \u3000".toList, isBlank c := ofAll (by decide)
  have stands : ¬∀ c ∈ "list , get,".toList, isBlank c := mt List.all_eq_true.mpr (by decide)
  have listed : Listed ["list", "get", ""] := by decide
  have tokens : split "list , get," = ["list", "get", ""] := by decide
  obtain ⟨-, pieces, -, joined, -, ends, commas⟩ := split_undoes_joining "list , get,"
  exact ⟨blank, (split_undoes_joining _).1 blank, stands, tokens, (pieces stands).1, listed,
    joined _ listed, ends "\t " "\n" (ofAll (by decide)) (ofAll (by decide)),
    commas "list " " get," "\u3000" "\t" rfl (ofAll (by decide)) (ofAll (by decide))⟩

end Context

end ModelDirectives
