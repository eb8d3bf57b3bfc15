import Mathlib.Algebra.Order.BigOperators.Group.List
import Mathlib.Algebra.Order.Group.Nat
import ModelDirectives.Model.Growth
import ModelDirectives.Proofs.Places

namespace ModelDirectives

def Concept.annotate (c : Concept) (a : Annotation) : Concept :=
  { c with annotations := c.annotations ++ [a] }

namespace Addition

/-- The concept that is added to; a type is added to the model itself. -/
def host? : Addition → Option Place
  | .type .. => none
  | .attribute t .. | .method t .. | .value t .. | .annotateType t _ => some ⟨t, .self⟩
  | .annotateAttribute t i _ => some ⟨t, .attribute i⟩
  | .annotateMethod t i _ => some ⟨t, .method i⟩
  | .annotateValue t i _ => some ⟨t, .value i⟩

/-- The annotation that is added, where it is not a concept. -/
def annotation? : Addition → Option Annotation
  | .type .. | .attribute .. | .method .. | .value .. => none
  | .annotateType _ a | .annotateAttribute _ _ a | .annotateMethod _ _ a
  | .annotateValue _ _ a => some a

theorem exists_host (s : Addition) {a : Annotation} (added : s.annotation? = some a) :
    ∃ p, s.host? = some p := by
  cases s with
  | type | «attribute» | method | value => cases added
  | annotateType | annotateAttribute | annotateMethod | annotateValue => exact ⟨_, rfl⟩

/-- Whether what is added to is there. -/
def Fits (s : Addition) (m : Model) : Prop :=
  ∀ p ∈ s.host?, (m.concept? p).isSome

instance (s : Addition) (m : Model) : Decidable (s.Fits m) :=
  inferInstanceAs (Decidable (∀ p ∈ s.host?, (m.concept? p).isSome))

end Addition

theorem getElem?_map_modify {α β : Type} {f : α → β} {g : α → α} {h : β → β}
    (same : ∀ x, f (g x) = h (f x)) (xs : List α) (i j : Nat) :
    (xs.modify i g)[j]?.map f = if j = i then (xs[j]?.map f).map h else xs[j]?.map f := by
  rw [List.getElem?_modify]
  by_cases here : i = j
  · subst here
    cases xs[i]? <;> simp [same]
  · have other : j ≠ i := fun eq => here eq.symm
    cases xs[j]? <;> simp [here, other]

theorem getElem?_map_concat {α β : Type} (f : α → β) (xs : List α) (x : α) (j : Nat) :
    (xs ++ [x])[j]?.map f = if j = xs.length then some (f x) else xs[j]?.map f := by
  rcases Nat.lt_trichotomy j xs.length with before | here | behind
  · rw [List.getElem?_append_left before, if_neg (Nat.ne_of_lt before)]
  · subst here
    simp
  · have absent : (xs ++ [x])[j]? = none := by
      rw [List.getElem?_eq_none_iff, List.length_append, List.length_singleton]
      omega
    rw [absent, List.getElem?_eq_none (Nat.le_of_lt behind), if_neg (Nat.ne_of_gt behind)]

namespace Model

def addAll (m : Model) (steps : List Addition) : Model :=
  steps.foldl add m

/-- Whether each of several additions fits when its turn comes. -/
def Takes : Model → List Addition → Prop
  | _, [] => True
  | m, s :: rest => s.Fits m ∧ (m.add s).Takes rest

instance decidableTakes : (m : Model) → (steps : List Addition) → Decidable (m.Takes steps)
  | _, [] => .isTrue trivial
  | m, s :: rest =>
    have := decidableTakes (m.add s) rest
    inferInstanceAs (Decidable (s.Fits m ∧ (m.add s).Takes rest))

variable {m : Model} {s : Addition} {p q : Place}

/-- What changes one part of a type changes one place of the model. -/
theorem concept?_atType {t : Nat} {d : TypeDef} {x : Part} {change : TypeDef → TypeDef}
    {f : Option Concept → Option Concept} (there : m.types[t]? = some d)
    (part : ∀ y, (change d).concept? y = if y = x then f (d.concept? y) else d.concept? y)
    (q : Place) : (m.atType t change).concept? q =
      if q = ⟨t, x⟩ then f (m.concept? q) else m.concept? q := by
  obtain ⟨k, y⟩ := q
  unfold concept? atType
  rw [List.getElem?_modify]
  by_cases here : t = k
  · subst here
    rw [there]
    simpa using part y
  · have other : k ≠ t := fun same => here same.symm
    cases m.types[k]? <;> simp [here, other]

/-- An annotation comes to the concept it is added to and to no other. -/
theorem concept?_annotated {a : Annotation} (fits : s.Fits m) (host : s.host? = some p)
    (added : s.annotation? = some a) (q : Place) :
    (m.add s).concept? q = if q = p then (m.concept? q).map (·.annotate a) else m.concept? q := by
  obtain ⟨c, hc⟩ := Option.isSome_iff_exists.mp (fits p host)
  obtain ⟨d, hd, -⟩ := Option.bind_eq_some_iff.mp hc
  cases s with
  | type | «attribute» | method | value => cases added
  | annotateType t b =>
    cases host
    cases added
    refine concept?_atType hd (fun y => ?_) q
    cases y <;> rfl
  | annotateAttribute t i b =>
    cases host
    cases added
    refine concept?_atType hd (fun y => ?_) q
    cases y with
    | self | method | value => rfl
    | «attribute» j =>
      simp only [TypeDef.concept?, Part.attribute.injEq]
      apply getElem?_map_modify
      exact fun _ => rfl
  | annotateMethod t i b =>
    cases host
    cases added
    refine concept?_atType hd (fun y => ?_) q
    cases y with
    | self | «attribute» | value => rfl
    | method j =>
      simp only [TypeDef.concept?, Part.method.injEq]
      apply getElem?_map_modify
      exact fun _ => rfl
  | annotateValue t i b =>
    cases host
    cases added
    refine concept?_atType hd (fun y => ?_) q
    cases y with
    | self | «attribute» | method => rfl
    | value j =>
      simp only [TypeDef.concept?, Part.value.injEq]
      apply getElem?_map_modify
      exact fun _ => rfl

/-- A type that is added stands behind all others, and nothing else changes. -/
theorem concept?_add_type (m : Model) (name : String) (kind : TypeKind) (q : Place) :
    (m.add (.type name kind)).concept? q =
      if q = ⟨m.types.length, .self⟩ then some ⟨name, .type, []⟩ else m.concept? q := by
  obtain ⟨k, y⟩ := q
  have own : (TypeDef.named name kind).concept? y =
      if y = .self then some ⟨name, .type, []⟩ else none := by
    cases y <;> rfl
  rcases Nat.lt_trichotomy k m.types.length with before | here | behind
  · have other : k ≠ m.types.length := Nat.ne_of_lt before
    simp [concept?, add, List.getElem?_append_left before, other]
  · subst here
    simp [concept?, add, own]
  · have absent : (m.types ++ [TypeDef.named name kind])[k]? = none := by
      rw [List.getElem?_eq_none_iff, List.length_append, List.length_singleton]
      omega
    simp [concept?, add, absent, List.getElem?_eq_none (Nat.le_of_lt behind), Nat.ne_of_gt behind]

/-- A concept that is added takes a place at which none stood and leaves the others as they are. -/
theorem concept?_added (fits : s.Fits m) (added : s.annotation? = none) :
    ∃ p c, m.concept? p = none ∧ c.annotations = [] ∧
      ∀ q, (m.add s).concept? q = if q = p then some c else m.concept? q := by
  have host : ∀ t, s.host? = some ⟨t, .self⟩ → ∃ d, m.types[t]? = some d := by
    intro t ht
    obtain ⟨c, hc⟩ := Option.isSome_iff_exists.mp (fits _ ht)
    obtain ⟨d, hd, -⟩ := Option.bind_eq_some_iff.mp hc
    exact ⟨d, hd⟩
  cases s with
  | annotateType | annotateAttribute | annotateMethod | annotateValue => cases added
  | type name kind =>
    refine ⟨⟨m.types.length, .self⟩, ⟨name, .type, []⟩, ?_, rfl, m.concept?_add_type name kind⟩
    simp [concept?]
  | «attribute» t name typeName =>
    obtain ⟨d, hd⟩ := host t rfl
    refine ⟨⟨t, .attribute d.attributes.length⟩, ⟨memberPath d.name name, .attribute, []⟩, ?_, rfl,
      concept?_atType (f := fun _ => some _) hd fun y => ?_⟩
    · simp [concept?_of_getElem? hd, TypeDef.concept?]
    cases y with
    | self | method | value => rfl
    | «attribute» j =>
      simp only [TypeDef.concept?, Part.attribute.injEq]
      exact getElem?_map_concat _ d.attributes _ j
  | method t name =>
    obtain ⟨d, hd⟩ := host t rfl
    refine ⟨⟨t, .method d.methods.length⟩, ⟨memberPath d.name name, .method, []⟩, ?_, rfl,
      concept?_atType (f := fun _ => some _) hd fun y => ?_⟩
    · simp [concept?_of_getElem? hd, TypeDef.concept?]
    cases y with
    | self | «attribute» | value => rfl
    | method j =>
      simp only [TypeDef.concept?, Part.method.injEq]
      exact getElem?_map_concat _ d.methods _ j
  | value t name =>
    obtain ⟨d, hd⟩ := host t rfl
    refine ⟨⟨t, .value d.values.length⟩, ⟨memberPath d.name name, .value, []⟩, ?_, rfl,
      concept?_atType (f := fun _ => some _) hd fun y => ?_⟩
    · simp [concept?_of_getElem? hd, TypeDef.concept?]
    cases y with
    | self | «attribute» | method => rfl
    | value j =>
      simp only [TypeDef.concept?, Part.value.injEq]
      exact getElem?_map_concat _ d.values _ j

/-- Every concept stays where it is, and annotations come only behind those that it has. -/
def Extends (m m' : Model) : Prop :=
  ∀ p c, m.concept? p = some c → ∃ c', m'.concept? p = some c' ∧ c'.path = c.path ∧
    c'.kind = c.kind ∧ c.annotations <+: c'.annotations

variable {m' m'' : Model}

theorem Extends.refl (m : Model) : m.Extends m :=
  fun _ c hc => ⟨c, hc, rfl, rfl, List.prefix_refl _⟩

theorem Extends.trans (h : m.Extends m') (h' : m'.Extends m'') : m.Extends m'' := by
  intro p c hc
  obtain ⟨c', hc', path, kind, annotations⟩ := h p c hc
  obtain ⟨c'', hc'', path', kind', annotations'⟩ := h' p c' hc'
  exact ⟨c'', hc'', path'.trans path, kind'.trans kind, annotations.trans annotations'⟩

/-- No addition takes a concept or one of its annotations away. -/
theorem add_extends (fits : s.Fits m) : m.Extends (m.add s) := by
  intro q c hc
  cases added : s.annotation? with
  | none =>
    obtain ⟨p, fresh, free, -, effect⟩ := concept?_added fits added
    have other : q ≠ p := by
      intro same
      rw [same, free] at hc
      cases hc
    rw [effect, if_neg other]
    exact ⟨c, hc, rfl, rfl, List.prefix_refl _⟩
  | some a =>
    obtain ⟨p, host⟩ := s.exists_host added
    rw [concept?_annotated fits host added, hc]
    by_cases here : q = p
    · rw [if_pos here]
      exact ⟨c.annotate a, rfl, rfl, rfl, List.prefix_append _ _⟩
    · rw [if_neg here]
      exact ⟨c, rfl, rfl, rfl, List.prefix_refl _⟩

theorem addAll_append (m : Model) (earlier later : List Addition) :
    m.addAll (earlier ++ later) = (m.addAll earlier).addAll later :=
  List.foldl_append

theorem takes_append {earlier later : List Addition} :
    m.Takes (earlier ++ later) ↔ m.Takes earlier ∧ (m.addAll earlier).Takes later := by
  induction earlier generalizing m with
  | nil => simp [Takes, addAll]
  | cons s rest ih =>
    rw [List.cons_append, Takes, Takes, ih, and_assoc]
    rfl

/-- By induction over the additions, each of which extends the model it is made to. -/
theorem addAll_extends {steps : List Addition} (fits : m.Takes steps) :
    m.Extends (m.addAll steps) := by
  induction steps generalizing m with
  | nil => exact Extends.refl m
  | cons s rest ih => exact (add_extends fits.1).trans (ih fits.2)

theorem Extends.places_sublist (h : m.Extends m') : m.places.Sublist m'.places := by
  have subset : m.places ⊆ m'.places := by
    intro p hp
    obtain ⟨c, hc⟩ := Option.isSome_iff_exists.mp (mem_places_iff.mp hp)
    obtain ⟨c', hc', -⟩ := h p c hc
    exact mem_places_iff.mpr (Option.isSome_of_eq_some hc')
  exact List.sublist_of_subperm_of_pairwise (List.subperm_of_subset m.places_nodup subset)
    m.places_pairwise m'.places_pairwise

/-- A concept that is added takes one more place. -/
theorem length_places_added (fits : s.Fits m) (added : s.annotation? = none) :
    (m.add s).places.length = m.places.length + 1 := by
  obtain ⟨p, fresh, free, -, effect⟩ := concept?_added fits added
  have absent : p ∉ m.places := by
    rw [mem_places_iff, free]
    exact Bool.false_ne_true
  have members : ∀ q, q ∈ (m.add s).places ↔ q ∈ p :: m.places := by
    intro q
    rw [mem_places_iff, effect, List.mem_cons, mem_places_iff]
    by_cases here : q = p <;> simp [here]
  have distinct := List.nodup_cons.mpr ⟨absent, m.places_nodup⟩
  exact ((List.perm_ext_iff_of_nodup (places_nodup _) distinct).mpr members).length_eq

theorem places_annotated {a : Annotation} (fits : s.Fits m) (added : s.annotation? = some a) :
    (m.add s).places = m.places := by
  obtain ⟨p, host⟩ := s.exists_host added
  -- Both lists are in order, so it is enough that they have the same members.
  apply (m.add s).places_pairwise.eq_of_mem_iff m.places_pairwise
  intro q
  rw [mem_places_iff, mem_places_iff, concept?_annotated fits host added]
  split <;> simp

/-- The annotations at a place; none where no concept stands. -/
def annotationsAt (m : Model) (p : Place) : List Annotation :=
  ((m.concept? p).map (·.annotations)).getD []

theorem sumOver_eq_places (m : Model) (measure : List Annotation → Nat) :
    m.sumOver measure = (m.places.map fun p => measure (m.annotationsAt p)).sum := by
  have concepts := congrArg (List.map fun c : Option Concept =>
    measure ((c.map (·.annotations)).getD [])) m.map_some_concepts
  rw [List.map_map, List.map_map] at concepts
  rw [← sum_concepts]
  exact congrArg List.sum concepts

/-- What grows with each list of annotations grows with the model. -/
theorem Extends.sumOver_le {measure : List Annotation → Nat}
    (grows : ∀ xs ys : List Annotation, xs <+: ys → measure xs ≤ measure ys) (h : m.Extends m') :
    m.sumOver measure ≤ m'.sumOver measure := by
  rw [sumOver_eq_places, sumOver_eq_places]
  have each : ∀ p ∈ m.places, measure (m.annotationsAt p) ≤ measure (m'.annotationsAt p) := by
    intro p hp
    obtain ⟨c, hc⟩ := Option.isSome_iff_exists.mp (mem_places_iff.mp hp)
    obtain ⟨c', hc', -, -, longer⟩ := h p c hc
    simpa [annotationsAt, hc, hc'] using grows _ _ longer
  -- First the lists grow at the old places, then new places join.
  calc (m.places.map fun p => measure (m.annotationsAt p)).sum
      ≤ (m.places.map fun p => measure (m'.annotationsAt p)).sum := List.sum_le_sum each
    _ ≤ (m'.places.map fun p => measure (m'.annotationsAt p)).sum :=
        (h.places_sublist.map _).sum_le_sum fun _ _ => Nat.zero_le _

end Model

end ModelDirectives
