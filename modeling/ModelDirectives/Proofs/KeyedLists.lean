import Mathlib.Data.List.Basic
import Mathlib.Data.List.Induction
import Mathlib.Data.List.Nodup
import ModelDirectives.Annotation
import ModelDirectives.Json.Value
import ModelDirectives.Proofs.Lookups

namespace ModelDirectives

/-- The last item of a list that bears a name. -/
def LastNamed {α : Type} (nameOf : α → String) (name : String) (xs : List α) (x : α) : Prop :=
  ∃ before after, xs = before ++ x :: after ∧ nameOf x = name ∧ ∀ y ∈ after, nameOf y ≠ name

namespace Keyed

variable {α : Type} (key : α → String)

/-- Puts an item into a list: over the one under its key, or at the end. -/
def put (x : α) : List α → List α
  | [] => [x]
  | y :: ys => if key y = key x then x :: ys else y :: put x ys

/-- The list of items that are put one after the other. -/
def collect (xs : List α) : List α :=
  xs.foldl (fun ys x => put key x ys) []

variable {key} {x y : α} {xs ys : List α} {k : String}

theorem put_of_not_mem (h : key x ∉ ys.map key) : put key x ys = ys ++ [x] := by
  induction ys with
  | nil => rfl
  | cons y ys ih =>
    obtain ⟨here, later⟩ := List.ne_and_not_mem_of_not_mem_cons h
    rw [put, if_neg (Ne.symm here), ih later, List.cons_append]

theorem keys_put_of_mem (h : key x ∈ ys.map key) : (put key x ys).map key = ys.map key := by
  induction ys with
  | nil => cases h
  | cons y ys ih =>
    by_cases same : key y = key x
    · rw [put, if_pos same, List.map_cons, List.map_cons, same]
    · have later := (List.mem_cons.mp h).resolve_left (Ne.symm same)
      rw [put, if_neg same, List.map_cons, List.map_cons, ih later]

/-- A key that is new is put at the end; one that is there keeps its position. -/
theorem keys_put (x : α) (ys : List α) :
    (put key x ys).map key = ys.map key ++ if key x ∈ ys.map key then [] else [key x] := by
  split
  next h => rw [keys_put_of_mem h, List.append_nil]
  next h => rw [put_of_not_mem h, List.map_append, List.map_singleton]

theorem find?_put_self (x : α) (ys : List α) :
    (put key x ys).find? (key · = key x) = some x := by
  induction ys with
  | nil => simp [put]
  | cons y ys ih =>
    by_cases same : key y = key x
    · rw [put, if_pos same, List.find?_cons_of_pos (by simp)]
    · rw [put, if_neg same, List.find?_cons_of_neg (by simpa using same), ih]

/-- The items under other keys stay as they are and in their order. -/
theorem filter_put (x : α) (ys : List α) :
    (put key x ys).filter (key · ≠ key x) = ys.filter (key · ≠ key x) := by
  induction ys with
  | nil => simp [put]
  | cons y ys ih =>
    by_cases same : key y = key x
    · rw [put, if_pos same, List.filter_cons_of_neg (by simp),
        List.filter_cons_of_neg (by simpa using same)]
    · rw [put, if_neg same, List.filter_cons_of_pos (by simpa using same),
        List.filter_cons_of_pos (by simpa using same), ih]

theorem find?_put_of_ne (other : k ≠ key x) (ys : List α) :
    (put key x ys).find? (key · = k) = ys.find? (key · = k) := by
  have unseen : ∀ zs : List α,
      zs.find? (key · = k) = (zs.filter (key · ≠ key x)).find? (key · = k) := by
    intro zs
    rw [List.find?_filter]
    refine congrArg (List.find? · zs) (funext fun z => ?_)
    by_cases same : key z = k
    · simp [same, other]
    · simp [same]
  rw [unseen, filter_put, ← unseen]

theorem put_put (same : key x = key y) (zs : List α) :
    put key y (put key x zs) = put key y zs := by
  induction zs with
  | nil => simp [put, same]
  | cons z zs ih =>
    by_cases here : key z = key x
    · rw [put, if_pos here, put, if_pos same, put, if_pos (here.trans same)]
    · have there : key z ≠ key y := same ▸ here
      rw [put, if_neg here, put, if_neg there, ih, put, if_neg there]

theorem collect_concat (xs : List α) (x : α) :
    collect key (xs ++ [x]) = put key x (collect key xs) := by
  rw [collect, List.foldl_append]
  rfl

theorem eraseDups_concat (names : List String) (name : String) :
    (names ++ [name]).eraseDups = names.eraseDups ++ if name ∈ names then [] else [name] := by
  have fresh : [name].removeAll names = if name ∈ names then [] else [name] := by
    simp [List.removeAll, List.filter_singleton]
  rw [List.eraseDups_append, fresh]
  split <;> rfl

/-- The keys stand in the order in which each was first put. -/
theorem keys_collect (xs : List α) : (collect key xs).map key = (xs.map key).eraseDups := by
  induction xs using List.reverseRecOn with
  | nil => rfl
  | append_singleton xs x ih =>
    rw [collect_concat, keys_put, ih, List.map_append, List.map_singleton, eraseDups_concat]
    simp only [List.mem_eraseDups]

theorem nodup_eraseDups (names : List String) : names.eraseDups.Nodup := by
  induction names using List.reverseRecOn with
  | nil => exact List.nodup_nil
  | append_singleton names name ih =>
    rw [eraseDups_concat]
    split
    next => rwa [List.append_nil]
    next fresh =>
      refine List.nodup_append.mpr ⟨ih, List.nodup_singleton name, fun n hn m hm same => fresh ?_⟩
      rw [← List.mem_singleton.mp hm, ← same]
      exact List.mem_eraseDups.mp hn

theorem nodup_keys_collect (xs : List α) : ((collect key xs).map key).Nodup := by
  rw [keys_collect]
  exact nodup_eraseDups _

/-- The last item under a key is the one at the end if it has that key. -/
theorem lastNamed_concat :
    LastNamed key k (xs ++ [y]) x ↔ key y = k ∧ x = y ∨ key y ≠ k ∧ LastNamed key k xs x := by
  constructor
  · intro h
    obtain ⟨before, after, eq, named, others⟩ := h
    rcases after.eq_nil_or_concat with rfl | ⟨earlier, z, rfl⟩
    · obtain ⟨-, last⟩ := List.append_inj' eq rfl
      obtain rfl : y = x := List.singleton_inj.mp last
      exact .inl ⟨named, rfl⟩
    · rw [List.concat_eq_append, ← List.cons_append, ← List.append_assoc] at eq
      obtain ⟨rfl, last⟩ := List.append_inj' eq rfl
      obtain rfl : y = z := List.singleton_inj.mp last
      rw [List.concat_eq_append, List.forall_mem_append] at others
      exact .inr ⟨others.2 y List.mem_cons_self, before, earlier, rfl, named, others.1⟩
  · intro h
    rcases h with ⟨rfl, rfl⟩ | ⟨other, before, after, rfl, named, others⟩
    · exact ⟨xs, [], rfl, rfl, List.forall_mem_nil _⟩
    · refine ⟨before, after ++ [y], by simp, named, List.forall_mem_append.mpr ⟨others, ?_⟩⟩
      exact List.forall_mem_singleton.mpr other

/-- What is found under a key is what was put last. -/
theorem find?_collect_eq_some_iff :
    (collect key xs).find? (key · = k) = some x ↔ LastNamed key k xs x := by
  induction xs using List.reverseRecOn with
  | nil =>
    refine iff_of_false nofun fun h => ?_
    obtain ⟨before, after, eq, -⟩ := h
    simp at eq
  | append_singleton xs y ih =>
    rw [collect_concat, lastNamed_concat]
    by_cases here : key y = k
    · rw [← here, find?_put_self]
      simp [eq_comm]
    · rw [find?_put_of_ne (Ne.symm here), ih]
      simp [here]

theorem mem_collect_iff : x ∈ collect key xs ↔ LastNamed key (key x) xs x := by
  rw [← find?_collect_eq_some_iff, find?_eq_some_iff_mem (nodup_keys_collect xs)]
  simp

theorem find?_collect_eq_none (h : k ∉ xs.map key) :
    (collect key xs).find? (key · = k) = none := by
  apply List.find?_eq_none.mpr
  intro y hy named
  have listed : key y ∈ (collect key xs).map key := List.mem_map_of_mem hy
  rw [keys_collect, List.mem_eraseDups] at listed
  exact h (of_decide_eq_true named ▸ listed)

/-- Items under different keys are collected as they are. -/
theorem collect_of_nodup (distinct : (xs.map key).Nodup) : collect key xs = xs := by
  induction xs using List.reverseRecOn with
  | nil => rfl
  | append_singleton xs x ih =>
    rw [List.map_append, List.nodup_append] at distinct
    have fresh : key x ∉ xs.map key := fun h =>
      distinct.2.2 _ h _ List.mem_cons_self rfl
    rw [collect_concat, ih distinct.1, put_of_not_mem fresh]

section Map

variable {β : Type} {key' : β → String} {f : α → β}

theorem put_map (same : ∀ x, key' (f x) = key x) (x : α) (ys : List α) :
    put key' (f x) (ys.map f) = (put key x ys).map f := by
  induction ys with
  | nil => rfl
  | cons y ys ih =>
    rw [List.map_cons, put, put, same, same, ih]
    split <;> rfl

/-- Items may be changed before or after they are collected when their keys stay. -/
theorem collect_map (same : ∀ x, key' (f x) = key x) (xs : List α) :
    collect key' (xs.map f) = (collect key xs).map f := by
  induction xs using List.reverseRecOn with
  | nil => rfl
  | append_singleton xs x ih =>
    rw [List.map_append, List.map_singleton, collect_concat, ih, put_map same, collect_concat]

end Map

section FirstHit

variable {β : Type}

theorem findSome?_eraseDups (names : List String) (f : String → Option β) :
    names.eraseDups.findSome? f = names.findSome? f := by
  induction names using List.reverseRecOn with
  | nil => rfl
  | append_singleton names name ih =>
    rw [eraseDups_concat, List.findSome?_append, List.findSome?_append, ih]
    split
    next seen =>
      cases h : names.findSome? f with
      | none =>
        have nothing := List.findSome?_eq_none_iff.mp h name seen
        rw [List.findSome?_nil, List.findSome?_singleton, nothing]
      | some b => rfl
    next => rfl

/-- What is found first among the collected items is found first along the keys, each taken with
the item that was put last. -/
theorem findSome?_collect (xs : List α) (f : α → Option β) :
    (collect key xs).findSome? f =
      (xs.map key).findSome? fun k => ((collect key xs).find? (key · = k)).bind f := by
  have here : ∀ x ∈ collect key xs, f x = ((collect key xs).find? (key · = key x)).bind f := by
    intro x hx
    rw [find?_of_mem_of_nodup (nodup_keys_collect xs) hx, Option.bind_some]
  rw [← findSome?_eraseDups, ← keys_collect, List.findSome?_map, ← List.head?_filterMap,
    List.filterMap_congr here, List.head?_filterMap]
  rfl

end FirstHit

end Keyed

theorem Parameter.write_eq_put (p : Parameter) (ps : List Parameter) :
    p.write ps = Keyed.put (·.name) p ps := by
  induction ps with
  | nil => rfl
  | cons q ps ih => rw [write, Keyed.put, ih]

theorem Annotation.foldl_set (name : String) (ps earlier : List Parameter) :
    ps.foldl set ⟨name, earlier⟩ =
      ⟨name, ps.foldl (fun qs p => Keyed.put (·.name) p qs) earlier⟩ := by
  induction ps generalizing earlier with
  | nil => rfl
  | cons p ps ih => rw [List.foldl_cons, List.foldl_cons, set, Parameter.write_eq_put, ih]

/-- An annotation is built by putting its parameters one over the other. -/
theorem Annotation.ofParameters_eq (name : String) (ps : List Parameter) :
    ofParameters name ps = ⟨name, Keyed.collect (·.name) ps⟩ :=
  foldl_set name ps []

namespace Json

variable {α : Type} {written : List (String × α)}

theorem writeMember_eq_put (k : String) (v : α) (ms : List (String × α)) :
    writeMember k v ms = Keyed.put Prod.fst (k, v) ms := by
  induction ms with
  | nil => rfl
  | cons m ms ih =>
    rw [writeMember, Keyed.put, ih]
    split
    next same => rw [← same]
    next => rfl

theorem collect_eq (written : List (String × α)) :
    collect written = Keyed.collect Prod.fst written := by
  unfold collect Keyed.collect
  simp only [writeMember_eq_put]

theorem collect_nodup (written : List (String × α)) : ((collect written).map Prod.fst).Nodup := by
  rw [collect_eq]
  exact Keyed.nodup_keys_collect written

/-- Members under different keys are kept as they are written. -/
theorem collect_of_nodup (distinct : (written.map Prod.fst).Nodup) : collect written = written := by
  rw [collect_eq, Keyed.collect_of_nodup distinct]

end Json

end ModelDirectives
