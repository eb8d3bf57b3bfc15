import ModelDirectives.Proofs.Lookups

namespace ModelDirectives

/-- What there is under a parameter in the first annotation of a name. -/
inductive Finding where
  | annotationAbsent
  | parameterAbsent
  | untyped
  | value (v : Value)
  deriving DecidableEq, Repr

namespace Finding

def value? : Finding → Option Value
  | .value v => some v
  | .annotationAbsent | .parameterAbsent | .untyped => none

/-- What the strict lookup of a value of any kind makes of it. -/
def strictValue (name parameter : String) : Finding → Except LookupError Value
  | .annotationAbsent => .error (.annotationMissing name)
  | .parameterAbsent => .error (.parameterMissing name parameter)
  | .untyped => .error (.untyped name parameter)
  | .value v => .ok v

end Finding

/-- Only the first annotation of the name counts, and in it the first parameter of its name. -/
inductive Finds (annotations : List Annotation) (name parameter : String) : Finding → Prop
  | annotationAbsent (absent : ∀ a ∈ annotations, a.name ≠ name) :
    Finds annotations name parameter .annotationAbsent
  | parameterAbsent {a : Annotation} (first : FirstNamed Annotation.name name annotations a)
      (absent : ∀ p ∈ a.parameters, p.name ≠ parameter) :
    Finds annotations name parameter .parameterAbsent
  | untyped {a : Annotation} (first : FirstNamed Annotation.name name annotations a)
      (written : FirstNamed Parameter.name parameter a.parameters ⟨parameter, none⟩) :
    Finds annotations name parameter .untyped
  | value {a : Annotation} {v : Value} (first : FirstNamed Annotation.name name annotations a)
      (written : FirstNamed Parameter.name parameter a.parameters ⟨parameter, some v⟩) :
    Finds annotations name parameter (.value v)

/-- How a strict lookup ends that expects one kind of value and reads a value as `reads` tells. -/
inductive Ends {β : Type} (name parameter : String) (expected : Kind) (reads : Value → β → Prop) :
    Finding → Except LookupError β → Prop
  | annotationAbsent :
    Ends name parameter expected reads .annotationAbsent (.error (.annotationMissing name))
  | parameterAbsent :
    Ends name parameter expected reads .parameterAbsent (.error (.parameterMissing name parameter))
  | untyped : Ends name parameter expected reads .untyped (.error (.untyped name parameter))
  | mismatch {v : Value} (other : v.kind ≠ expected) (typed : v.kind ≠ .untyped) :
    Ends name parameter expected reads (.value v)
      (.error (.mismatch name parameter expected v.kind))
  | value {v : Value} {x : β} (same : v.kind = expected) (read : reads v x) :
    Ends name parameter expected reads (.value v) (.ok x)

theorem Value.kind_ne_untyped (v : Value) : v.kind ≠ .untyped := by
  cases v <;> simp [kind]

namespace Lookup

variable {α : Type} [Annotated α] {concept : α} {name parameter : String} {f : Finding}

theorem exists_finds (concept : α) (name parameter : String) :
    ∃ f, Finds (annotationsOf concept) name parameter f := by
  cases ha : (annotationsOf concept).find? (·.name = name) with
  | none => exact ⟨_, .annotationAbsent (by simpa using ha)⟩
  | some a =>
    have first := find?_eq_some_iff_firstNamed.mp ha
    cases hp : a.parameters.find? (·.name = parameter) with
    | none => exact ⟨_, .parameterAbsent first (by simpa using hp)⟩
    | some p =>
      have written := find?_eq_some_iff_firstNamed.mp hp
      obtain ⟨n, v⟩ := p
      obtain ⟨-, -, -, rfl, -⟩ := id written
      cases v with
      | none => exact ⟨_, .untyped first written⟩
      | some v => exact ⟨_, .value first written⟩

/-- The strict lookup of a value tells everything about what there is. -/
theorem strict_value_of_finds (h : Finds (annotationsOf concept) name parameter f) :
    Strict.value concept name parameter = f.strictValue name parameter := by
  unfold Strict.value Strict.parameter first? Annotation.parameter?
  cases h with
  | annotationAbsent absent =>
    rw [List.find?_eq_none.mpr fun a ha => mt of_decide_eq_true (absent a ha)]
    rfl
  | parameterAbsent first absent =>
    rw [find?_eq_some_iff_firstNamed.mpr first]
    simp only [List.find?_eq_none.mpr fun p hp => mt of_decide_eq_true (absent p hp)]
    rfl
  | untyped first written | value first written =>
    rw [find?_eq_some_iff_firstNamed.mpr first]
    simp only [find?_eq_some_iff_firstNamed.mpr written]
    rfl

/-- There is no more than one thing to find. -/
theorem finds_unique {g : Finding} (hf : Finds (annotationsOf concept) name parameter f)
    (hg : Finds (annotationsOf concept) name parameter g) : g = f := by
  have same := (strict_value_of_finds hg).symm.trans (strict_value_of_finds hf)
  cases f <;> cases g <;> simp_all [Finding.strictValue]

theorem value?_of_finds (h : Finds (annotationsOf concept) name parameter f) :
    value? concept name parameter = f.value? := by
  have strict := strict_value_of_finds h
  cases hv : value? concept name parameter with
  | some v =>
    rw [Strict.value_of_some hv] at strict
    cases f <;> simp_all [Finding.strictValue, Finding.value?]
  | none =>
    obtain ⟨e, -, he⟩ := Strict.value_of_none hv
    rw [he] at strict
    cases f <;> simp_all [Finding.strictValue, Finding.value?]

/-- Each of the four findings has its own way to end, and a value of the wrong kind another one. -/
theorem string_ends (h : Finds (annotationsOf concept) name parameter f) :
    Ends name parameter .string (fun v s => v = .string s) f
      (Strict.string concept name parameter) := by
  unfold Strict.string
  rw [strict_value_of_finds h]
  cases f with
  | annotationAbsent => exact .annotationAbsent
  | parameterAbsent => exact .parameterAbsent
  | untyped => exact .untyped
  | value v =>
    cases v with
    | string s => exact .value rfl rfl
    | bool b => exact .mismatch (by simp [Value.kind]) (Value.kind_ne_untyped _)

theorem bool_ends (h : Finds (annotationsOf concept) name parameter f) :
    Ends name parameter .bool (fun v b => v = .bool b) f (Strict.bool concept name parameter) := by
  unfold Strict.bool
  rw [strict_value_of_finds h]
  cases f with
  | annotationAbsent => exact .annotationAbsent
  | parameterAbsent => exact .parameterAbsent
  | untyped => exact .untyped
  | value v =>
    cases v with
    | string s => exact .mismatch (by simp [Value.kind]) (Value.kind_ne_untyped _)
    | bool b => exact .value rfl rfl

/-- What becomes of a value that was read does not change how the lookup ends. -/
theorem ends_map {β γ : Type} {expected : Kind} {reads : Value → β → Prop}
    {outcome : Except LookupError β} (change : β → γ)
    (h : Ends name parameter expected reads f outcome) :
    Ends name parameter expected (fun v y => ∃ x, reads v x ∧ y = change x) f
      (outcome.map change) := by
  cases h with
  | annotationAbsent => exact .annotationAbsent
  | parameterAbsent => exact .parameterAbsent
  | untyped => exact .untyped
  | mismatch other typed => exact .mismatch other typed
  | value same read => exact .value same ⟨_, read, rfl⟩

/-- A lookup reports an absence exactly when there is no value. -/
theorem ends_absent_iff {β : Type} {expected : Kind} {reads : Value → β → Prop}
    {outcome : Except LookupError β} (h : Ends name parameter expected reads f outcome) :
    (∃ e, outcome = .error e ∧ e.isAbsence = true) ↔ f.value? = none := by
  cases h <;> simp [LookupError.isAbsence, Finding.value?]

theorem ends_ok_iff {β : Type} {expected : Kind} {reads : Value → β → Prop}
    {outcome : Except LookupError β} (h : Ends name parameter expected reads f outcome) :
    (∃ x, outcome = .ok x) ↔ ∃ v, f = .value v ∧ v.kind = expected := by
  cases h with
  | annotationAbsent | parameterAbsent | untyped => simp
  | mismatch other typed => simp [other]
  | value same read => simp [same]

/-- The lenient lookup takes the empty text for every error. -/
theorem string_eq_strict : string concept name parameter =
    (Strict.string concept name parameter).toOption.getD "" := by
  obtain ⟨f, h⟩ := exists_finds concept name parameter
  unfold string Strict.string
  rw [value?_of_finds h, strict_value_of_finds h]
  rcases f with _ | _ | _ | (_ | _) <;> rfl

theorem bool_eq_strict : bool concept name parameter =
    (Strict.bool concept name parameter).toOption.getD false := by
  obtain ⟨f, h⟩ := exists_finds concept name parameter
  unfold bool Strict.bool
  rw [value?_of_finds h, strict_value_of_finds h]
  rcases f with _ | _ | _ | (_ | _) <;> rfl

theorem context_eq_strict : context concept name parameter =
    (Strict.context concept name parameter).toOption.getD [] := by
  obtain ⟨f, h⟩ := exists_finds concept name parameter
  unfold context Strict.context Strict.string
  rw [value?_of_finds h, strict_value_of_finds h]
  rcases f with _ | _ | _ | (_ | _) <;> rfl

/-- Lenient and strict lookups agree at every parameter of every concept. There is exactly one
finding, it decides how each strict lookup ends, and the strict lookups of the two kinds are absent
together; where there is a value, one of the two kinds reads it and the other does not. -/
theorem lenient_and_strict_agree (concept : α) (name parameter : String) :
    string concept name parameter = (Strict.string concept name parameter).toOption.getD "" ∧
    bool concept name parameter = (Strict.bool concept name parameter).toOption.getD false ∧
    context concept name parameter = (Strict.context concept name parameter).toOption.getD [] ∧
    (∃ f, Finds (annotationsOf concept) name parameter f ∧
      (∀ g, Finds (annotationsOf concept) name parameter g → g = f) ∧
      Ends name parameter .string (fun v s => v = .string s) f
        (Strict.string concept name parameter) ∧
      Ends name parameter .bool (fun v b => v = .bool b) f (Strict.bool concept name parameter) ∧
      Ends name parameter .string (fun v tokens => ∃ s, v = .string s ∧ tokens = Context.split s) f
        (Strict.context concept name parameter)) ∧
    ((∃ e, Strict.string concept name parameter = .error e ∧ e.isAbsence = true) ↔
      value? concept name parameter = none) ∧
    ((∃ e, Strict.bool concept name parameter = .error e ∧ e.isAbsence = true) ↔
      value? concept name parameter = none) ∧
    ∀ v, value? concept name parameter = some v →
      ((∃ s, Strict.string concept name parameter = .ok s) ↔
        ¬∃ b, Strict.bool concept name parameter = .ok b) := by
  obtain ⟨f, h⟩ := exists_finds concept name parameter
  have asString := string_ends h
  have asBool := bool_ends h
  have value := value?_of_finds h
  refine ⟨string_eq_strict, bool_eq_strict, context_eq_strict,
    ⟨f, h, fun g hg => finds_unique h hg, asString, asBool, ends_map Context.split asString⟩,
    ?_, ?_, ?_⟩
  · rw [ends_absent_iff asString, value]
  · rw [ends_absent_iff asBool, value]
  · intro v hv
    rw [ends_ok_iff asString, ends_ok_iff asBool]
    rw [value] at hv
    cases f with
    | annotationAbsent | parameterAbsent | untyped => cases hv
    | value w => cases w <;> simp [Value.kind]

end Lookup

end ModelDirectives
