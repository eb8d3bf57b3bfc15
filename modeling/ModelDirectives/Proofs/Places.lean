import Mathlib.Algebra.BigOperators.Group.List.Basic
import Mathlib.Algebra.Ring.Nat
import Mathlib.Data.List.Sort
import ModelDirectives.Model

namespace ModelDirectives

/-- Where a concept stands in a type: it is the type, or a member counted from zero. -/
inductive Part where
  | self
  | attribute (i : Nat)
  | method (i : Nat)
  | value (i : Nat)
  deriving DecidableEq, Repr

namespace Part

def sort : Part → Nat
  | .self => 0
  | .attribute _ => 1
  | .method _ => 2
  | .value _ => 3

def index : Part → Nat
  | .self => 0
  | .attribute i | .method i | .value i => i

/-- A type stands before its members, attributes before methods and methods before values. -/
def Before (x y : Part) : Prop :=
  x.sort < y.sort ∨ x.sort = y.sort ∧ x.index < y.index

end Part

/-- Where a concept stands in a model; types are counted from zero. -/
structure Place where
  type : Nat
  part : Part
  deriving DecidableEq, Repr

namespace Place

def Before (p q : Place) : Prop :=
  p.type < q.type ∨ p.type = q.type ∧ p.part.Before q.part

instance : Std.Irrefl Before :=
  ⟨fun p h => by
    unfold Before Part.Before at h
    omega⟩

instance : Std.Antisymm Before :=
  ⟨fun p q h h' => by
    unfold Before Part.Before at h h'
    omega⟩

end Place

namespace TypeDef

def concept? (t : TypeDef) : Part → Option Concept
  | .self => some ⟨t.name, .type, t.annotations⟩
  | .attribute i =>
    t.attributes[i]?.map fun a => ⟨t.name ++ "." ++ a.name, .attribute, a.annotations⟩
  | .method i => t.methods[i]?.map fun m => ⟨t.name ++ "." ++ m.name, .method, m.annotations⟩
  | .value i => t.values[i]?.map fun v => ⟨t.name ++ "." ++ v.name, .value, v.annotations⟩

def parts (t : TypeDef) : List Part :=
  .self :: ((List.range t.attributes.length).map .attribute ++
    ((List.range t.methods.length).map .method ++ (List.range t.values.length).map .value))

end TypeDef

namespace Model

/-- The concept that stands at a place. -/
def concept? (m : Model) (p : Place) : Option Concept :=
  m.types[p.type]?.bind (·.concept? p.part)

/-- The places at which concepts stand, in order. -/
def places (m : Model) : List Place :=
  m.types.zipIdx.flatMap fun (t, k) => t.parts.map (Place.mk k)

/-- The sum of a measure of annotations over all concepts. -/
def sumOver (m : Model) (measure : List Annotation → Nat) : Nat :=
  (m.types.map fun t => measure t.annotations +
    (t.attributes.map (measure ·.annotations)).sum + (t.methods.map (measure ·.annotations)).sum +
    (t.values.map (measure ·.annotations)).sum).sum

end Model

/-- A list is what stands at its indices in order. -/
theorem map_some_eq_range {α β : Type} (xs : List α) (f : α → β) :
    (xs.map f).map some = (List.range xs.length).map fun i => xs[i]?.map f := by
  apply List.ext_getElem
  · simp
  · intro i h _
    have bound : i < xs.length := by simpa using h
    simp [bound]

namespace TypeDef

variable {t : TypeDef}

/-- The concepts of a type are those found at its parts. -/
theorem map_some_concepts (t : TypeDef) : t.concepts.map some = t.parts.map t.concept? := by
  unfold concepts parts
  rw [List.map_cons, List.map_append, List.map_append, map_some_eq_range, map_some_eq_range,
    map_some_eq_range, List.map_cons, List.map_append, List.map_append, List.append_assoc]
  simp only [List.map_map]
  rfl

theorem mem_parts_iff {x : Part} : x ∈ t.parts ↔ (t.concept? x).isSome := by
  cases x <;> simp [parts, concept?]

theorem parts_pairwise (t : TypeDef) : t.parts.Pairwise Part.Before := by
  have ordered : ∀ (make : Nat → Part) (n : Nat), (∀ i j, (make i).sort = (make j).sort) →
      (∀ i, (make i).index = i) → ((List.range n).map make).Pairwise Part.Before := by
    intro make n sort index
    rw [List.pairwise_map]
    exact List.pairwise_lt_range.imp fun h => .inr ⟨sort _ _, by rwa [index, index]⟩
  unfold parts
  rw [List.pairwise_cons, List.pairwise_append, List.pairwise_append]
  refine ⟨?_, ordered .attribute _ (fun _ _ => rfl) fun _ => rfl,
    ⟨ordered .method _ (fun _ _ => rfl) fun _ => rfl,
      ordered .value _ (fun _ _ => rfl) fun _ => rfl, ?_⟩, ?_⟩
  all_goals simp +contextual [Part.Before, Part.sort, or_imp, forall_and]

end TypeDef

namespace Model

variable {m : Model} {p : Place}

theorem concept?_of_getElem? {t : TypeDef} {k : Nat} (h : m.types[k]? = some t) (x : Part) :
    m.concept? ⟨k, x⟩ = t.concept? x := by
  unfold concept?
  rw [h]
  rfl

theorem map_some_concepts (m : Model) : m.concepts.map some = m.places.map m.concept? := by
  have each : ∀ e ∈ m.types.zipIdx,
      e.1.concepts.map some = (e.1.parts.map (Place.mk e.2)).map m.concept? := by
    intro e he
    rw [e.1.map_some_concepts, List.map_map]
    exact List.map_congr_left fun x _ =>
      (concept?_of_getElem? (List.mem_zipIdx_iff_getElem?.mp he) x).symm
  calc m.concepts.map some
      = m.types.flatMap fun t => t.concepts.map some := List.map_flatMap ..
    _ = (m.types.zipIdx.map Prod.fst).flatMap fun t => t.concepts.map some := by
        rw [List.zipIdx_map_fst]
    _ = m.types.zipIdx.flatMap fun e => e.1.concepts.map some := List.flatMap_map ..
    _ = m.types.zipIdx.flatMap fun e => (e.1.parts.map (Place.mk e.2)).map m.concept? :=
        List.flatMap_congr each
    _ = m.places.map m.concept? := (List.map_flatMap ..).symm

theorem mem_places_iff : p ∈ m.places ↔ (m.concept? p).isSome := by
  obtain ⟨k, x⟩ := p
  unfold places concept?
  simp only [List.mem_flatMap, List.mem_map, Prod.exists, List.mem_zipIdx_iff_getElem?,
    Place.mk.injEq]
  constructor
  · intro h
    obtain ⟨t, _, ht, _, hx, rfl, rfl⟩ := h
    rw [ht]
    exact TypeDef.mem_parts_iff.mp hx
  · intro h
    obtain ⟨c, hc⟩ := Option.isSome_iff_exists.mp h
    obtain ⟨t, ht, hx⟩ := Option.bind_eq_some_iff.mp hc
    exact ⟨t, k, ht, x, TypeDef.mem_parts_iff.mpr (Option.isSome_of_eq_some hx), rfl, rfl⟩

theorem places_pairwise (m : Model) : m.places.Pairwise Place.Before := by
  unfold places
  rw [List.pairwise_flatMap]
  constructor
  · intro e _
    rw [List.pairwise_map]
    exact e.1.parts_pairwise.imp fun h => .inr ⟨rfl, h⟩
  · have ordered : m.types.zipIdx.Pairwise fun e f => e.2 < f.2 := by
      rw [← List.pairwise_map, List.zipIdx_map_snd]
      exact List.pairwise_lt_range'
    refine ordered.imp fun earlier p hp q hq => ?_
    obtain ⟨_, _, rfl⟩ := List.mem_map.mp hp
    obtain ⟨_, _, rfl⟩ := List.mem_map.mp hq
    exact .inl earlier

theorem places_nodup (m : Model) : m.places.Nodup :=
  m.places_pairwise.nodup

theorem sum_concepts (m : Model) (measure : List Annotation → Nat) :
    (m.concepts.map (measure ·.annotations)).sum = m.sumOver measure := by
  unfold concepts sumOver
  rw [List.map_flatMap, List.flatMap_def, List.sum_flatten, List.map_map]
  simp [Function.comp_def, TypeDef.concepts, Nat.add_assoc]

end Model

end ModelDirectives
