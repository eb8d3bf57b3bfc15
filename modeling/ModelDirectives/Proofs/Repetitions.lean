import Mathlib.Data.List.Induction
import ModelDirectives.Proofs.KeyedLists
import ModelDirectives.Proofs.ResolutionInputs

namespace ModelDirectives

open Keyed (eraseDups_concat)

/-- The annotation at an index stands behind another one of its name. -/
def RepeatedAt (as : List Annotation) (i : Nat) : Prop :=
  ∃ a ∈ as[i]?, ∃ j, j < i ∧ ∃ b ∈ as[j]?, b.name = a.name

instance (as : List Annotation) (i : Nat) : Decidable (RepeatedAt as i) :=
  inferInstanceAs (Decidable (∃ a ∈ as[i]?, ∃ j, j < i ∧ ∃ b ∈ as[j]?, b.name = a.name))

/-- The repeated annotations of a list, with their indices. -/
def repeated (as : List Annotation) : List <| Annotation × Nat :=
  as.zipIdx.filter fun e => RepeatedAt as e.2

/-- A list without its repeated annotations. -/
def firsts (as : List Annotation) : List Annotation :=
  (as.zipIdx.filter fun e => ¬RepeatedAt as e.2).map Prod.fst

section Lists

variable {as xs ys : List Annotation} {a : Annotation} {i : Nat}

theorem repeatedAt_iff_mem_take :
    RepeatedAt as i ↔ ∃ a ∈ as[i]?, ∃ b ∈ as.take i, b.name = a.name := by
  have before : ∀ b, b ∈ as.take i ↔ ∃ j, j < i ∧ as[j]? = some b := by
    intro b
    simp only [List.mem_iff_getElem?, List.getElem?_take, Option.ite_none_right_eq_some]
  simp only [RepeatedAt, before, Option.mem_def]
  constructor
  · intro h
    obtain ⟨a, ha, j, hj, b, hb, same⟩ := h
    exact ⟨a, ha, b, ⟨j, hj, hb⟩, same⟩
  · intro h
    obtain ⟨a, ha, b, ⟨j, hj, hb⟩, same⟩ := h
    exact ⟨a, ha, j, hj, b, hb, same⟩

theorem repeatedAt_split :
    RepeatedAt (xs ++ a :: ys) xs.length ↔ ∃ b ∈ xs, b.name = a.name := by
  rw [repeatedAt_iff_mem_take, List.take_left]
  simp

/-- Whether an annotation is repeated is settled by those before it. -/
theorem repeatedAt_append (h : i < xs.length) : RepeatedAt (xs ++ ys) i ↔ RepeatedAt xs i := by
  rw [repeatedAt_iff_mem_take, repeatedAt_iff_mem_take, List.getElem?_append_left h,
    List.take_append_of_le_length (Nat.le_of_lt h)]

theorem mem_repeated_iff {e : Annotation × Nat} :
    e ∈ repeated as ↔ as[e.2]? = some e.1 ∧ RepeatedAt as e.2 := by
  rw [repeated, List.mem_filter, List.mem_zipIdx_iff_getElem?, decide_eq_true_iff]

theorem repeated_pairwise (as : List Annotation) :
    (repeated as).Pairwise fun d e => d.2 < e.2 := by
  have ordered : as.zipIdx.Pairwise fun d e => d.2 < e.2 := by
    rw [← List.pairwise_map, List.zipIdx_map_snd]
    exact List.pairwise_lt_range'
  exact ordered.filter _

theorem repeatedAt_of_mem_zipIdx {e : Annotation × Nat} (h : e ∈ as.zipIdx) :
    RepeatedAt (as ++ ys) e.2 ↔ RepeatedAt as e.2 :=
  repeatedAt_append (List.getElem?_eq_some_iff.mp (List.mem_zipIdx_iff_getElem?.mp h)).1

theorem zipIdx_concat (as : List Annotation) (a : Annotation) :
    (as ++ [a]).zipIdx = as.zipIdx ++ [(a, as.length)] := by
  rw [List.zipIdx_append, List.zipIdx_singleton, Nat.zero_add]

/-- An annotation at the end is repeated when one of its name stands before it. -/
theorem repeated_concat (as : List Annotation) (a : Annotation) :
    repeated (as ++ [a]) =
      repeated as ++ if ∃ b ∈ as, b.name = a.name then [(a, as.length)] else [] := by
  have earlier : as.zipIdx.filter (fun e => RepeatedAt (as ++ [a]) e.2) = repeated as :=
    List.filter_congr fun _ he => decide_eq_decide.mpr (repeatedAt_of_mem_zipIdx he)
  rw [repeated, zipIdx_concat, List.filter_append, earlier, List.filter_singleton]
  simp only [repeatedAt_split, Bool.cond_decide]

theorem firsts_concat (as : List Annotation) (a : Annotation) :
    firsts (as ++ [a]) = firsts as ++ if ∃ b ∈ as, b.name = a.name then [] else [a] := by
  have earlier : as.zipIdx.filter (fun e => ¬RepeatedAt (as ++ [a]) e.2) =
      as.zipIdx.filter fun e => ¬RepeatedAt as e.2 :=
    List.filter_congr fun _ he => decide_eq_decide.mpr (not_congr (repeatedAt_of_mem_zipIdx he))
  rw [firsts, zipIdx_concat, List.filter_append, List.map_append, earlier, List.filter_singleton]
  simp only [repeatedAt_split, Bool.cond_decide, ite_not]
  split <;> rfl

/-- What is left bears each name once, in the order in which the names first occur. -/
theorem map_name_firsts (as : List Annotation) :
    (firsts as).map (·.name) = (as.map (·.name)).eraseDups := by
  induction as using List.reverseRecOn with
  | nil => rfl
  | append_singleton as a ih =>
    have again : (∃ b ∈ as, b.name = a.name) ↔ a.name ∈ as.map (·.name) := List.mem_map.symm
    rw [firsts_concat, List.map_append, ih, List.map_append, List.map_singleton, eraseDups_concat]
    simp only [again]
    split <;> rfl

/-- Every annotation is either the first of its name or repeated. -/
theorem length_repeated (as : List Annotation) :
    (repeated as).length + (as.map (·.name)).eraseDups.length = as.length := by
  have parts := List.length_eq_length_filter_add (l := as.zipIdx) fun e => RepeatedAt as e.2
  rw [← map_name_firsts, List.length_map, firsts, List.length_map, repeated]
  simpa using parts.symm

end Lists

namespace Lookup

variable {as xs ys : List Annotation} {a : Annotation} {i : Nat}

/-- The lookup of the name that an annotation bears ends where the annotation stands: whatever
annotation of this name is put there, that one is found. -/
def Reaches (as : List Annotation) (i : Nat) : Prop :=
  ∃ a ∈ as[i]?, ∀ b : Annotation, b.name = a.name → first? (as.set i b) a.name = some b

theorem reaches_split :
    Reaches (xs ++ a :: ys) xs.length ↔ ¬∃ b ∈ xs, b.name = a.name := by
  have put : ∀ b, (xs ++ a :: ys).set xs.length b = xs ++ b :: ys := by simp
  constructor
  · intro h
    obtain ⟨c, hc, found⟩ := h
    obtain rfl : a = c := by simpa using hc
    intro earlier
    obtain ⟨b, hb, same⟩ := earlier
    -- Behind an annotation of its name nothing that is put there makes a difference.
    have unseen : ∀ c : Annotation, c.name = a.name →
        first? (xs ++ ys) a.name = some c := by
      intro c hc
      rw [← first?_insert_behind hb (hc.trans same.symm), ← put]
      exact found c hc
    cases (unseen ⟨a.name, []⟩ rfl).symm.trans (unseen ⟨a.name, [⟨"", none⟩]⟩ rfl)
  · intro alone
    refine ⟨a, by simp, fun b hb => ?_⟩
    rw [put]
    exact find?_eq_some_iff_firstNamed.mpr
      ⟨xs, ys, rfl, hb, fun c hc same => alone ⟨c, hc, same⟩⟩

/-- A lookup reaches an annotation that is not repeated. -/
theorem reaches_iff (h : i < as.length) : Reaches as i ↔ ¬RepeatedAt as i := by
  obtain ⟨xs, a, ys, rfl, rfl⟩ : ∃ xs a ys, as = xs ++ a :: ys ∧ xs.length = i := by
    refine ⟨as.take i, as[i], as.drop (i + 1), ?_, List.length_take_of_le (Nat.le_of_lt h)⟩
    rw [List.getElem_cons_drop, List.take_append_drop]
  rw [reaches_split, repeatedAt_split]

/-- The first annotation of a name is never a repeated one. -/
theorem first?_firsts (as : List Annotation) (name : String) :
    first? (firsts as) name = first? as name := by
  induction as using List.reverseRecOn with
  | nil => rfl
  | append_singleton as a ih =>
    rw [firsts_concat]
    split
    next h =>
      obtain ⟨b, hb, same⟩ := h
      rw [List.append_nil, ih, first?_insert_behind hb same.symm, List.append_nil]
    next h =>
      have apart : ∀ zs : List Annotation,
          first? (zs ++ [a]) name = (first? zs name).or (first? [a] name) :=
        fun _ => List.find?_append
      rw [apart, apart, ih]

end Lookup

end ModelDirectives
