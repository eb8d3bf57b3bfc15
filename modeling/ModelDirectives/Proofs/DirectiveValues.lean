import ModelDirectives.Directives
import ModelDirectives.Proofs.Lookups

namespace ModelDirectives

/-- The parameter that an error is about. -/
def LookupError.parameter? : LookupError → Option String
  | .annotationMissing _ => none
  | .parameterMissing _ p | .untyped _ p | .mismatch _ p _ _ => some p

namespace Directives

/-- The directives in `json` that expect a value of one kind. -/
def expectations : List (String × Kind) :=
  [("name", .string), ("readOnly", .bool), ("default", .string), ("required", .bool),
    ("context", .string)]

/-- A field holds something that was written, or the default when nothing was. -/
def Settled {β : Type} (field default : β) (written : β → Prop) : Prop :=
  written field ∨ (field = default ∧ ∀ x, ¬written x)

/-- The directives hold what is written in a list of annotations, or ask for nothing where nothing
of the kind is written. A name in `http` or `go` is a string as it stands, or a boolean in
letters. -/
structure AsWritten (d : Directives) (annotations : List Annotation) : Prop where
  jsonName : Settled d.jsonName "" (Writes annotations "json" "name" <| .string ·)
  jsonReadOnly : Settled d.jsonReadOnly false (Writes annotations "json" "readOnly" <| .bool ·)
  jsonDefault : Settled d.jsonDefault "" (Writes annotations "json" "default" <| .string ·)
  jsonRequired : Settled d.jsonRequired false (Writes annotations "json" "required" <| .bool ·)
  jsonContext : Settled d.jsonContext [] fun tokens => ∃ s,
    Writes annotations "json" "context" (.string s) ∧ tokens = Context.split s
  httpName : Settled d.httpName "" fun s =>
    Writes annotations "http" "name" (.string s) ∨
    Writes annotations "http" "name" (.bool true) ∧ s = "true" ∨
    Writes annotations "http" "name" (.bool false) ∧ s = "false"
  goName : Settled d.goName "" fun s =>
    Writes annotations "go" "name" (.string s) ∨
    Writes annotations "go" "name" (.bool true) ∧ s = "true" ∨
    Writes annotations "go" "name" (.bool false) ∧ s = "false"

def Rule.expected (r : Rule) : Kind :=
  if r.wantsBool then .bool else .string

theorem rules_expectations :
    rules.map (fun r => (r.name, r.parameter, r.expected)) =
      expectations.map fun x => ("json", x) := by
  rfl

variable {α : Type} [Annotated α] {concept : α}

theorem Rule.breach?_eq_some_iff {r : Rule} {e : LookupError} :
    r.breach? concept = some e ↔
      ∃ v, Writes (annotationsOf concept) r.name r.parameter v ∧ v.kind ≠ r.expected ∧
        e = .mismatch r.name r.parameter r.expected v.kind := by
  simp only [← Lookup.value?_eq_some_iff]
  unfold breach? Lookup.Strict.bool Lookup.Strict.string expected
  cases h : Lookup.value? concept r.name r.parameter with
  | none =>
    obtain ⟨absence, absent, he⟩ := Lookup.Strict.value_of_none h
    rw [he]
    cases r.wantsBool <;> simp [bind, Except.bind, Except.map, absent]
  | some v =>
    rw [Lookup.Strict.value_of_some h]
    cases r.wantsBool <;> cases v <;>
      simp [bind, Except.bind, Except.map, Value.kind, LookupError.isAbsence, eq_comm (a := e)]

theorem mem_breaches_iff {e : LookupError} :
    e ∈ breaches concept ↔ ∃ p expected v, (p, expected) ∈ expectations ∧
      Writes (annotationsOf concept) "json" p v ∧ v.kind ≠ expected ∧
        e = .mismatch "json" p expected v.kind := by
  unfold breaches
  rw [List.mem_filterMap]
  constructor
  · intro h
    obtain ⟨r, hr, hb⟩ := h
    obtain ⟨v, written, other, eq⟩ := Rule.breach?_eq_some_iff.mp hb
    have listed := List.mem_map_of_mem (f := fun r => (r.name, r.parameter, r.expected)) hr
    rw [rules_expectations] at listed
    obtain ⟨x, hx, he⟩ := List.mem_map.mp listed
    obtain ⟨named, rfl⟩ := Prod.mk.inj he
    rw [← named] at written eq
    exact ⟨_, _, v, hx, written, other, eq⟩
  · intro h
    obtain ⟨p, expected, v, hp, written, other, eq⟩ := h
    have listed := List.mem_map_of_mem (f := fun x => ("json", x)) hp
    rw [← rules_expectations] at listed
    obtain ⟨r, hr, he⟩ := List.mem_map.mp listed
    obtain ⟨named, same⟩ := Prod.mk.inj he
    obtain ⟨rfl, rfl⟩ := Prod.mk.inj same
    rw [← named] at written eq
    exact ⟨r, hr, Rule.breach?_eq_some_iff.mpr ⟨v, written, other, eq⟩⟩

/-- What is picked from a list stands in the order of the list. -/
theorem filterMap_sublist {β γ δ : Type} {pick : β → Option γ} {ofPicked : γ → δ} {ofItem : β → δ}
    (xs : List β) (same : ∀ x y, pick x = some y → ofPicked y = ofItem x) :
    ((xs.filterMap pick).map ofPicked).Sublist (xs.map ofItem) := by
  induction xs with
  | nil => exact List.Sublist.slnil
  | cons x xs ih =>
    cases hx : pick x with
    | none =>
      rw [List.filterMap_cons_none hx]
      exact ih.cons _
    | some y =>
      rw [List.filterMap_cons_some hx, List.map_cons, List.map_cons, same x y hx]
      exact ih.cons_cons _

/-- Breaches stand in the order of the expectations, at most one for each. -/
theorem breaches_ordered :
    ((breaches concept).map LookupError.parameter?).Sublist (expectations.map (some ·.1)) := by
  have named : ∀ r e, Rule.breach? concept r = some e → e.parameter? = some r.parameter := by
    intro r e h
    obtain ⟨v, -, -, eq⟩ := Rule.breach?_eq_some_iff.mp h
    rw [eq]
    rfl
  exact filterMap_sublist rules named

/-- A lookup that reads the value found, or falls back on a default, is settled by what was
written. -/
theorem settled_of_value? {β : Type} (concept : α) (name parameter : String)
    (read : Value → Option β) (default : β) :
    Settled (((Lookup.value? concept name parameter).bind read).getD default) default
      fun x => ∃ v, Writes (annotationsOf concept) name parameter v ∧ read v = some x := by
  cases h : (Lookup.value? concept name parameter).bind read with
  | none =>
    refine Or.inr ⟨rfl, ?_⟩
    intro x hx
    obtain ⟨v, written, hv⟩ := hx
    rw [Lookup.value?_eq_some_iff.mpr written, Option.bind_some, hv] at h
    cases h
  | some x =>
    obtain ⟨v, hv, hx⟩ := Option.bind_eq_some_iff.mp h
    exact Or.inl ⟨v, Lookup.value?_eq_some_iff.mp hv, hx⟩

theorem Settled.congr {β : Type} {field default : β} {p q : β → Prop}
    (h : Settled field default p) (same : ∀ x, p x ↔ q x) : Settled field default q := by
  simpa only [Settled, same] using h

theorem string?_eq_some_iff {v : Value} {s : String} : v.string? = some s ↔ v = .string s := by
  cases v <;> simp [Value.string?]

theorem bool?_eq_some_iff {v : Value} {b : Bool} : v.bool? = some b ↔ v = .bool b := by
  cases v <;> simp [Value.bool?]

theorem string_settled (name parameter : String) :
    Settled (Lookup.string concept name parameter) "" fun s =>
      Writes (annotationsOf concept) name parameter (.string s) :=
  (settled_of_value? concept name parameter Value.string? "").congr (by simp [string?_eq_some_iff])

theorem bool_settled (name parameter : String) :
    Settled (Lookup.bool concept name parameter) false fun b =>
      Writes (annotationsOf concept) name parameter (.bool b) :=
  (settled_of_value? concept name parameter Value.bool? false).congr (by simp [bool?_eq_some_iff])

theorem context_settled (name parameter : String) :
    Settled (Lookup.context concept name parameter) [] fun tokens => ∃ s,
      Writes (annotationsOf concept) name parameter (.string s) ∧ tokens = Context.split s := by
  have settled := settled_of_value? concept name parameter (fun v => v.string?.map Context.split) []
  rw [Lookup.context, Option.map_bind]
  apply settled.congr
  intro tokens
  constructor
  · intro h
    obtain ⟨v, written, hv⟩ := h
    obtain ⟨s, hs, eq⟩ := Option.map_eq_some_iff.mp hv
    rw [string?_eq_some_iff.mp hs] at written
    exact ⟨s, written, eq.symm⟩
  · intro h
    obtain ⟨s, written, eq⟩ := h
    exact ⟨_, written, by rw [eq]; rfl⟩

/-- A name may be given as a boolean, which then stands for the word. -/
theorem text_settled (name parameter : String) :
    Settled (Lookup.text concept name parameter) "" fun s =>
      Writes (annotationsOf concept) name parameter (.string s) ∨
      Writes (annotationsOf concept) name parameter (.bool true) ∧ s = "true" ∨
      Writes (annotationsOf concept) name parameter (.bool false) ∧ s = "false" := by
  have settled := settled_of_value? concept name parameter (fun v => some v.text) ""
  rw [Lookup.text, Option.map_eq_bind]
  apply settled.congr
  intro s
  constructor
  · intro h
    obtain ⟨v, written, hv⟩ := h
    rw [← Option.some.inj hv]
    match v with
    | .string _ => exact .inl written
    | .bool true => exact .inr (.inl ⟨written, rfl⟩)
    | .bool false => exact .inr (.inr ⟨written, rfl⟩)
  · intro h
    obtain written | ⟨written, rfl⟩ | ⟨written, rfl⟩ := h
    · exact ⟨_, written, rfl⟩
    · exact ⟨_, written, rfl⟩
    · exact ⟨_, written, rfl⟩

theorem mem_expectations_iff {p : String} {expected : Kind} : (p, expected) ∈ expectations ↔
    p ∈ ["name", "default", "context"] ∧ expected = .string ∨
      p ∈ ["readOnly", "required"] ∧ expected = .bool := by
  simp only [expectations, List.mem_cons, Prod.mk.injEq, List.not_mem_nil, or_false]
  grind

/-- The breaches are the booleans where strings belong and the strings where booleans belong. -/
theorem mem_breaches_iff_written {e : LookupError} : e ∈ breaches concept ↔
    (∃ p ∈ ["name", "default", "context"], ∃ b,
      Writes (annotationsOf concept) "json" p (.bool b) ∧ e = .mismatch "json" p .string .bool) ∨
    ∃ p ∈ ["readOnly", "required"], ∃ s,
      Writes (annotationsOf concept) "json" p (.string s) ∧
        e = .mismatch "json" p .bool .string := by
  simp only [mem_breaches_iff, mem_expectations_iff]
  constructor
  · rintro ⟨p, expected, v, ⟨listed, rfl⟩ | ⟨listed, rfl⟩, written, other, rfl⟩
    · cases v with
      | string s => exact absurd rfl other
      | bool b => exact .inl ⟨p, listed, b, written, rfl⟩
    · cases v with
      | string s => exact .inr ⟨p, listed, s, written, rfl⟩
      | bool b => exact absurd rfl other
  · rintro (⟨p, listed, b, written, rfl⟩ | ⟨p, listed, s, written, rfl⟩)
    · exact ⟨p, .string, .bool b, .inl ⟨listed, rfl⟩, written, nofun, rfl⟩
    · exact ⟨p, .bool, .string s, .inr ⟨listed, rfl⟩, written, nofun, rfl⟩

theorem resolve_asWritten (concept : α) : (resolve concept).AsWritten (annotationsOf concept) where
  jsonName := string_settled "json" "name"
  jsonReadOnly := bool_settled "json" "readOnly"
  jsonDefault := string_settled "json" "default"
  jsonRequired := bool_settled "json" "required"
  jsonContext := context_settled "json" "context"
  httpName := text_settled "http" "name"
  goName := text_settled "go" "name"

/-- Of the values written for the directives in `json`, those of another kind than expected are told
of, each once and in order, and those of the expected kind are resolved as they stand. -/
theorem no_value_lost (concept : α) :
    (∀ e, e ∈ breaches concept ↔
      (∃ p ∈ ["name", "default", "context"], ∃ b,
        Writes (annotationsOf concept) "json" p (.bool b) ∧
          e = .mismatch "json" p .string .bool) ∨
      ∃ p ∈ ["readOnly", "required"], ∃ s,
        Writes (annotationsOf concept) "json" p (.string s) ∧
          e = .mismatch "json" p .bool .string) ∧
    ((breaches concept).map LookupError.parameter?).Sublist
      [some "name", some "readOnly", some "default", some "required", some "context"] ∧
    (resolve concept).AsWritten (annotationsOf concept) :=
  ⟨fun _ => mem_breaches_iff_written, breaches_ordered, resolve_asWritten concept⟩

end Directives

end ModelDirectives
