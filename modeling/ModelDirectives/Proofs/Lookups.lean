import ModelDirectives.Lookup.Strict

namespace ModelDirectives

/-- The first item of a list that bears a name. -/
def FirstNamed {α : Type} (nameOf : α → String) (name : String) (xs : List α) (x : α) : Prop :=
  ∃ before after, xs = before ++ x :: after ∧ nameOf x = name ∧ ∀ y ∈ before, nameOf y ≠ name

/-- The first annotation of a name has a parameter with the value. -/
def Writes (annotations : List Annotation) (name parameter : String) (v : Value) : Prop :=
  ∃ a, FirstNamed Annotation.name name annotations a ∧
    FirstNamed Parameter.name parameter a.parameters ⟨parameter, some v⟩

/-- A search by name finds the item with nothing of that name before it. -/
theorem find?_eq_some_iff_firstNamed {α : Type} {nameOf : α → String} {name : String}
    {xs : List α} {x : α} :
    xs.find? (nameOf · = name) = some x ↔ FirstNamed nameOf name xs x := by
  rw [List.find?_eq_some_iff_append, FirstNamed]
  simp only [decide_eq_true_eq, Bool.not_eq_true', decide_eq_false_iff_not]
  constructor
  · intro h
    obtain ⟨named, before, after, eq, others⟩ := h
    exact ⟨before, after, eq, named, others⟩
  · intro h
    obtain ⟨before, after, eq, named, others⟩ := h
    exact ⟨named, before, after, eq, others⟩

theorem find?_of_mem_of_nodup {α : Type} {nameOf : α → String} {xs : List α} {x : α}
    (distinct : (xs.map nameOf).Nodup) (hx : x ∈ xs) :
    xs.find? (nameOf · = nameOf x) = some x := by
  obtain ⟨before, after, rfl⟩ := List.append_of_mem hx
  have others : ∀ y ∈ before, nameOf y ≠ nameOf x := by
    intro y hy same
    rw [List.map_append, List.map_cons] at distinct
    have apart := (List.nodup_append.mp distinct).2.2
    exact apart _ (List.mem_map_of_mem hy) _ List.mem_cons_self same
  exact find?_eq_some_iff_firstNamed.mpr ⟨before, after, rfl, rfl, others⟩

theorem find?_eq_some_iff_mem {α : Type} {nameOf : α → String} {xs : List α} {x : α} {name : String}
    (distinct : (xs.map nameOf).Nodup) :
    xs.find? (nameOf · = name) = some x ↔ x ∈ xs ∧ nameOf x = name := by
  constructor
  · intro h
    exact ⟨List.mem_of_find?_eq_some h, by simpa using List.find?_some h⟩
  · intro h
    obtain ⟨hx, rfl⟩ := h
    exact find?_of_mem_of_nodup distinct hx

namespace Lookup

variable {α : Type} [Annotated α] {concept : α} {name parameter : String} {v : Value}

theorem value?_eq_some_iff :
    value? concept name parameter = some v ↔ Writes (annotationsOf concept) name parameter v := by
  unfold value? first? Annotation.find? Annotation.parameter?
  constructor
  · intro h
    obtain ⟨a, ha, h⟩ := Option.bind_eq_some_iff.mp h
    obtain ⟨p, hp, hv⟩ := Option.bind_eq_some_iff.mp h
    have first := find?_eq_some_iff_firstNamed.mp hp
    obtain ⟨-, -, -, named, -⟩ := id first
    have eq : p = ⟨parameter, some v⟩ := by
      cases p
      simp_all
    exact ⟨a, find?_eq_some_iff_firstNamed.mp ha, eq ▸ first⟩
  · intro h
    obtain ⟨a, ha, hp⟩ := h
    rw [find?_eq_some_iff_firstNamed.mpr ha]
    show Option.bind (a.parameters.find? (·.name = parameter)) (·.value) = some v
    rw [find?_eq_some_iff_firstNamed.mpr hp]
    rfl

/-- The strict lookup of a value finds the same one, and where there is none it tells of an
absence. -/
theorem Strict.value_of_some (h : value? concept name parameter = some v) :
    Strict.value concept name parameter = .ok v := by
  unfold Strict.value Strict.parameter
  obtain ⟨a, ha, h⟩ := Option.bind_eq_some_iff.mp h
  obtain ⟨p, hp, hv⟩ := Option.bind_eq_some_iff.mp h
  simp [ha, hp, hv, bind, Except.bind]

theorem Strict.value_of_none (h : value? concept name parameter = none) :
    ∃ e, e.isAbsence = true ∧ Strict.value concept name parameter = .error e := by
  unfold Strict.value Strict.parameter
  unfold value? Annotation.find? at h
  cases ha : first? concept name with
  | none => exact ⟨.annotationMissing name, rfl, rfl⟩
  | some a =>
    cases hp : a.parameter? parameter with
    | none =>
      refine ⟨.parameterMissing name parameter, rfl, ?_⟩
      simp [hp, bind, Except.bind]
    | some p =>
      have hv : p.value = none := by simpa [ha, hp] using h
      refine ⟨.untyped name parameter, rfl, ?_⟩
      simp [hp, hv, bind, Except.bind]

end Lookup

end ModelDirectives
