import Mathlib.Logic.Relation
import ModelDirectives.Proofs.DirectiveValues
import ModelDirectives.Proofs.LookupOutcomes
import ModelDirectives.Proofs.Paths

namespace ModelDirectives

/-- In a list whose items have different names, an item is found under its name. -/
theorem find?_perm {α : Type} {nameOf : α → String} {xs ys : List α} (perm : xs.Perm ys)
    (distinct : (xs.map nameOf).Nodup) (name : String) :
    xs.find? (nameOf · = name) = ys.find? (nameOf · = name) := by
  have distinct' : (ys.map nameOf).Nodup := (perm.map nameOf).nodup_iff.mp distinct
  apply Option.ext
  intro x
  rw [find?_eq_some_iff_mem distinct, find?_eq_some_iff_mem distinct', perm.mem_iff]

namespace Lookup

variable {xs ys : List Annotation} {a b : Annotation} {name parameter : String}

theorem first?_insert_other (other : a.name ≠ name) :
    first? (xs ++ a :: ys) name = first? (xs ++ ys) name := by
  simp [first?, annotationsOf, List.find?_append, other]

theorem first?_insert_behind (mem : b ∈ xs) (same : a.name = b.name) :
    first? (xs ++ a :: ys) name = first? (xs ++ ys) name := by
  by_cases other : a.name = name
  · have found : (xs.find? (·.name = name)).isSome := by
      rw [List.find?_isSome]
      exact ⟨b, mem, by simp [← same, other]⟩
    simp only [first?, annotationsOf, id, List.find?_append, Option.or_of_isSome found]
  · exact first?_insert_other other

/-- Only annotations of the name have a part in a lookup. -/
theorem first?_of_filter (kept : xs.filter (·.name = name) = ys.filter (·.name = name)) :
    first? xs name = first? ys name := by
  show xs.find? _ = ys.find? _
  rw [← List.head?_filter, kept, List.head?_filter]

/-- Two annotations of one name that stand at one place are told apart by their parameters only. -/
theorem value?_replace (named : a.name = b.name)
    (same : a.name = name → a.find? parameter = b.find? parameter) :
    value? (xs ++ a :: ys) name parameter = value? (xs ++ b :: ys) name parameter := by
  unfold value?
  by_cases other : a.name = name
  · have other' : b.name = name := named ▸ other
    simp only [first?, annotationsOf, id, List.find?_append, List.find?_cons, other, other',
      decide_true]
    cases xs.find? (·.name = name) with
    | none => exact same other
    | some c => rfl
  · have other' : b.name ≠ name := named ▸ other
    rw [first?_insert_other other, first?_insert_other other']

end Lookup

namespace Directives

/-- The parameters that directives are read from, with the names of their annotations. -/
def inputs : List (String × String) :=
  [("http", "name"), ("json", "name"), ("json", "readOnly"), ("json", "default"),
    ("json", "required"), ("json", "context"), ("go", "name")]

section SameValues

variable {α β : Type} [Annotated α] [Annotated β] {x : α} {y : β}

/-- Directives are resolved from seven values. -/
theorem resolve_congr
    (same : ∀ i ∈ inputs, Lookup.value? x i.1 i.2 = Lookup.value? y i.1 i.2) :
    resolve x = resolve y := by
  simp only [inputs, List.forall_mem_cons] at same
  obtain ⟨httpName, jsonName, readOnly, default, required, context, goName, -⟩ := same
  unfold resolve targetName Lookup.text Lookup.string Lookup.bool Lookup.context
  simp only [httpName, jsonName, readOnly, default, required, context, goName]

theorem rules_subset_inputs : ∀ r ∈ rules, (r.name, r.parameter) ∈ inputs := by
  decide

theorem breaches_congr_values
    (same : ∀ i ∈ inputs, Lookup.value? x i.1 i.2 = Lookup.value? y i.1 i.2) :
    breaches x = breaches y := by
  have each : ∀ r ∈ rules, Rule.breach? x r = Rule.breach? y r := by
    intro r hr
    have value := same _ (rules_subset_inputs r hr)
    apply Option.ext
    intro e
    simp only [Rule.breach?_eq_some_iff, ← Lookup.value?_eq_some_iff, value]
  exact List.filterMap_congr each

end SameValues

/-- A change of annotations that no directive can see. It leads from the left list to the right one,
and back again. -/
inductive Edit : List Annotation → List Annotation → Prop
  /-- An annotation comes in anywhere that has none of the names that are read. -/
  | unread {xs ys : List Annotation} {a : Annotation} (other : ∀ i ∈ inputs, a.name ≠ i.1) :
    Edit (xs ++ ys) (xs ++ a :: ys)
  /-- An annotation comes in somewhere behind one of its name. -/
  | behind {xs ys : List Annotation} {a b : Annotation} (mem : b ∈ xs) (same : a.name = b.name) :
    Edit (xs ++ ys) (xs ++ a :: ys)
  /-- Annotations change places, but those of one name keep their order. -/
  | reordered {xs ys : List Annotation} (perm : xs.Perm ys)
      (kept : ∀ name, xs.filter (·.name = name) = ys.filter (·.name = name)) : Edit xs ys
  /-- The parameters of an annotation change places. -/
  | parametersReordered {xs ys : List Annotation} {name : String} {ps qs : List Parameter}
      (distinct : (ps.map (·.name)).Nodup) (perm : ps.Perm qs) :
    Edit (xs ++ ⟨name, ps⟩ :: ys) (xs ++ ⟨name, qs⟩ :: ys)
  /-- A parameter comes in that is not read in an annotation of this name. -/
  | unreadParameter {xs ys : List Annotation} {name : String} {ps qs : List Parameter}
      {p : Parameter} (other : (name, p.name) ∉ inputs) :
    Edit (xs ++ ⟨name, ps ++ qs⟩ :: ys) (xs ++ ⟨name, ps ++ p :: qs⟩ :: ys)
  /-- A parameter without a value comes in under a name that the annotation does not have, which is
  where any such parameter stands as long as the names in the annotation are different. -/
  | untyped {xs ys : List Annotation} {name : String} {ps qs : List Parameter} {p : Parameter}
      (empty : p.value = none) (fresh : p.name ∉ (ps ++ qs).map (·.name)) :
    Edit (xs ++ ⟨name, ps ++ qs⟩ :: ys) (xs ++ ⟨name, ps ++ p :: qs⟩ :: ys)

theorem find?_insert_other {name parameter : String} {ps qs : List Parameter} {p : Parameter}
    (other : p.name ≠ parameter) :
    Annotation.find? ⟨name, ps ++ p :: qs⟩ parameter =
      Annotation.find? ⟨name, ps ++ qs⟩ parameter := by
  simp [List.find?_append, Annotation.find?, Annotation.parameter?, other]

theorem find?_insert_untyped {name parameter : String} {ps qs : List Parameter} {p : Parameter}
    (empty : p.value = none) (fresh : p.name ∉ (ps ++ qs).map (·.name)) :
    Annotation.find? ⟨name, ps ++ p :: qs⟩ parameter =
      Annotation.find? ⟨name, ps ++ qs⟩ parameter := by
  by_cases other : p.name = parameter
  · -- The parameter is found without a value, and no other one of the name is there.
    subst other
    have absent : ∀ q ∈ ps ++ qs, q.name ≠ p.name := fun q hq same =>
      fresh (same ▸ List.mem_map_of_mem hq)
    have nowhere : (ps ++ qs).find? (·.name = p.name) = none :=
      List.find?_eq_none.mpr (by simpa using absent)
    have front : ps.find? (·.name = p.name) = none :=
      List.find?_eq_none.mpr (by simpa using (List.forall_mem_append.mp absent).1)
    unfold Annotation.find? Annotation.parameter?
    simp only [nowhere, List.find?_append, front]
    simp [empty]
  · exact find?_insert_other other

/-- An edit leaves the seven values as they are. -/
theorem Edit.value? {xs ys : List Annotation} (h : Edit xs ys) :
    ∀ i ∈ inputs, Lookup.value? xs i.1 i.2 = Lookup.value? ys i.1 i.2 := by
  intro i hi
  cases h with
  | unread other =>
    unfold Lookup.value?
    rw [Lookup.first?_insert_other (other i hi)]
  | behind mem same =>
    unfold Lookup.value?
    rw [Lookup.first?_insert_behind mem same]
  | reordered perm kept =>
    unfold Lookup.value?
    rw [Lookup.first?_of_filter (kept i.1)]
  | parametersReordered distinct perm =>
    refine Lookup.value?_replace rfl fun _ => ?_
    unfold Annotation.find? Annotation.parameter?
    rw [find?_perm perm distinct]
  | unreadParameter other =>
    refine Lookup.value?_replace rfl fun named => (find?_insert_other ?_).symm
    intro same
    have read : (i.1, i.2) ∈ inputs := hi
    rw [← same, ← named] at read
    exact other read
  | untyped empty fresh =>
    exact Lookup.value?_replace rfl fun _ => (find?_insert_untyped empty fresh).symm

theorem value?_of_edits {xs ys : List Annotation} (h : Relation.EqvGen Edit xs ys) :
    ∀ i ∈ inputs, Lookup.value? xs i.1 i.2 = Lookup.value? ys i.1 i.2 := by
  induction h with
  | rel xs ys edit => exact edit.value?
  | refl xs => exact fun _ _ => rfl
  | symm xs ys _ ih => exact fun i hi => (ih i hi).symm
  | trans xs ys zs _ _ first second => exact fun i hi => (first i hi).trans (second i hi)

/-- Directives and breaches of two concepts of whatever sort are the same when the seven values are
that they are read from, and so they are when the annotations of one are those of the other after
any number of edits, made or taken back. -/
theorem seven_values_decide {α β : Type} [Annotated α] [Annotated β] (x : α) (y : β) :
    ((∀ i ∈ inputs, ∀ v,
        Writes (annotationsOf x) i.1 i.2 v ↔ Writes (annotationsOf y) i.1 i.2 v) →
      resolve x = resolve y ∧ breaches x = breaches y) ∧
    (Relation.EqvGen Edit (annotationsOf x) (annotationsOf y) →
      resolve x = resolve y ∧ breaches x = breaches y) := by
  constructor
  · intro same
    have values : ∀ i ∈ inputs, Lookup.value? x i.1 i.2 = Lookup.value? y i.1 i.2 := by
      intro i hi
      apply Option.ext
      intro v
      rw [Lookup.value?_eq_some_iff, Lookup.value?_eq_some_iff, same i hi]
    exact ⟨resolve_congr values, breaches_congr_values values⟩
  · intro edits
    have values : ∀ i ∈ inputs, Lookup.value? x i.1 i.2 = Lookup.value? y i.1 i.2 :=
      value?_of_edits edits
    exact ⟨resolve_congr values, breaches_congr_values values⟩

/-- Annotations as a plain list. -/
def unedited : List Annotation :=
  [⟨"json", [⟨"name", some (.string "a")⟩, ⟨"required", some (.string "yes")⟩]⟩]

/-- A method with these annotations after its parameters have changed places and other annotations
have come in. -/
def edited : Method :=
  ⟨"get", [⟨"json", [⟨"required", some (.string "yes")⟩, ⟨"name", some (.string "a")⟩]⟩,
    ⟨"xml", [⟨"name", none⟩]⟩, ⟨"json", [⟨"name", some (.string "b")⟩]⟩]⟩

theorem seven_values_decide_edited :
    Relation.EqvGen Edit unedited edited.annotations ∧
      (∀ i ∈ inputs, ∀ v, Writes unedited i.1 i.2 v ↔ Writes edited.annotations i.1 i.2 v) ∧
      resolve unedited = resolve edited ∧ breaches unedited = breaches edited ∧
      (resolve edited).jsonName = "a" ∧
      breaches edited = [.mismatch "json" "required" .bool .string] := by
  have reordered : Edit ([] ++ unedited) ([] ++ edited.annotations.take 1) :=
    .parametersReordered (by decide) (.swap ..)
  have other : Edit (edited.annotations.take 1 ++ []) (edited.annotations.take 2 ++ []) :=
    .unread (by decide)
  have later : Edit (edited.annotations.take 2 ++ []) edited.annotations :=
    .behind List.mem_cons_self rfl
  have edits : Relation.EqvGen Edit unedited edited.annotations :=
    .trans _ _ _ (.rel _ _ reordered) (.trans _ _ _ (.rel _ _ other) (.rel _ _ later))
  have same : ∀ i ∈ inputs,
      Lookup.value? unedited i.1 i.2 = Lookup.value? edited i.1 i.2 := by decide
  have written : ∀ i ∈ inputs, ∀ v,
      Writes (annotationsOf unedited) i.1 i.2 v ↔ Writes (annotationsOf edited) i.1 i.2 v := by
    intro i hi v
    rw [← Lookup.value?_eq_some_iff, ← Lookup.value?_eq_some_iff, same i hi]
  obtain ⟨resolved, broken⟩ := (seven_values_decide unedited edited).1 written
  exact ⟨edits, written, ((seven_values_decide unedited edited).2 edits).1, broken, rfl, rfl⟩

end Directives

end ModelDirectives
