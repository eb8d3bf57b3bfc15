import ModelDirectives.Proofs.Additions
import ModelDirectives.Proofs.Repetitions
import ModelDirectives.Proofs.ReportCoverage

namespace ModelDirectives

/-- Where an annotation stands in a model: at an index in the list of the concept at a place. -/
structure Position where
  place : Place
  index : Nat
  deriving DecidableEq, Repr

def Position.Before (k l : Position) : Prop :=
  k.place.Before l.place ∨ k.place = l.place ∧ k.index < l.index

/-- Changes the annotations of a concept. -/
def Concept.mapAnnotations (c : Concept) (f : List Annotation → List Annotation) : Concept :=
  { c with annotations := f c.annotations }

/-- Changes the annotations at each part of a type. -/
def TypeDef.mapAnnotations (t : TypeDef) (f : Part → List Annotation → List Annotation) :
    TypeDef where
  name := t.name
  kind := t.kind
  annotations := f .self t.annotations
  attributes := t.attributes.mapIdx fun i a =>
    { a with annotations := f (.attribute i) a.annotations }
  methods := t.methods.mapIdx fun i x => { x with annotations := f (.method i) x.annotations }
  values := t.values.mapIdx fun i v => { v with annotations := f (.value i) v.annotations }

theorem TypeDef.concept?_mapAnnotations (t : TypeDef)
    (f : Part → List Annotation → List Annotation) (x : Part) :
    (t.mapAnnotations f).concept? x = (t.concept? x).map (·.mapAnnotations (f x)) := by
  cases x with
  | self => rfl
  | «attribute» i | method i | value i =>
    simp [mapAnnotations, concept?, List.getElem?_mapIdx, Function.comp_def, Concept.mapAnnotations]

namespace Model

/-- Changes the annotations at each place of a model. -/
def mapAnnotations (m : Model) (f : Place → List Annotation → List Annotation) : Model :=
  ⟨m.types.mapIdx fun k t => t.mapAnnotations fun x => f ⟨k, x⟩⟩

/-- The positions of the repeated annotations, in order. -/
def repetitions (m : Model) : List Position :=
  m.places.flatMap fun p => (repeated (m.annotationsAt p)).map fun e => ⟨p, e.2⟩

/-- The model without the annotations at the given positions. -/
def without (m : Model) (away : List Position) : Model :=
  m.mapAnnotations fun p as => (as.zipIdx.filter fun e => ⟨p, e.2⟩ ∉ away).map Prod.fst

variable {m : Model} {p : Place}

theorem annotationsAt_of_concept? {c : Concept} (h : m.concept? p = some c) :
    m.annotationsAt p = c.annotations := by
  rw [annotationsAt, h]
  rfl

/-- A concept stays at its place when its annotations are changed. -/
theorem concept?_mapAnnotations (f : Place → List Annotation → List Annotation) (p : Place) :
    (m.mapAnnotations f).concept? p = (m.concept? p).map (·.mapAnnotations (f p)) := by
  unfold mapAnnotations concept?
  rw [List.getElem?_mapIdx]
  cases m.types[p.type]? with
  | none => rfl
  | some t => exact t.concept?_mapAnnotations _ p.part

theorem places_mapAnnotations (f : Place → List Annotation → List Annotation) :
    (m.mapAnnotations f).places = m.places := by
  apply (m.mapAnnotations f).places_pairwise.eq_of_mem_iff m.places_pairwise
  intro p
  rw [mem_places_iff, mem_places_iff, concept?_mapAnnotations, Option.isSome_map]

/-- A change that is the same at all places is a change of the concepts. -/
theorem concepts_mapAnnotations {f : Place → List Annotation → List Annotation}
    {g : List Annotation → List Annotation}
    (same : ∀ p c, m.concept? p = some c → f p c.annotations = g c.annotations) :
    (m.mapAnnotations f).concepts = m.concepts.map (·.mapAnnotations g) := by
  have each : ∀ p ∈ m.places,
      (m.mapAnnotations f).concept? p = (m.concept? p).map (·.mapAnnotations g) := by
    intro p _
    rw [concept?_mapAnnotations]
    refine Option.map_congr fun c hc => ?_
    rw [Concept.mapAnnotations, Concept.mapAnnotations, same p c hc]
  apply (Option.some_injective _).list_map
  calc (m.mapAnnotations f).concepts.map some
      = m.places.map (m.mapAnnotations f).concept? := by
        rw [map_some_concepts, places_mapAnnotations]
    _ = m.places.map fun p => (m.concept? p).map (·.mapAnnotations g) := List.map_congr_left each
    _ = (m.places.map m.concept?).map (Option.map (·.mapAnnotations g)) := by
        rw [List.map_map]
        rfl
    _ = (m.concepts.map (·.mapAnnotations g)).map some := by
        rw [← map_some_concepts, List.map_map, List.map_map]
        rfl

theorem mem_repetitions_iff {k : Position} :
    k ∈ m.repetitions ↔ ∃ c, m.concept? k.place = some c ∧ RepeatedAt c.annotations k.index := by
  obtain ⟨p, i⟩ := k
  simp only [repetitions, List.mem_flatMap, List.mem_map, Position.mk.injEq]
  constructor
  · intro h
    obtain ⟨_, hp, e, he, rfl, rfl⟩ := h
    obtain ⟨c, hc⟩ := Option.isSome_iff_exists.mp (mem_places_iff.mp hp)
    rw [annotationsAt_of_concept? hc] at he
    exact ⟨c, hc, (mem_repeated_iff.mp he).2⟩
  · intro h
    obtain ⟨c, hc, hi⟩ := h
    obtain ⟨a, ha, -⟩ := id hi
    refine ⟨p, mem_places_iff.mpr (Option.isSome_of_eq_some hc), (a, i), ?_, rfl, rfl⟩
    rw [annotationsAt_of_concept? hc]
    exact mem_repeated_iff.mpr ⟨ha, hi⟩

theorem repetitions_pairwise (m : Model) : m.repetitions.Pairwise Position.Before := by
  unfold repetitions
  rw [List.pairwise_flatMap]
  constructor
  · intro p _
    rw [List.pairwise_map]
    exact (repeated_pairwise _).imp fun earlier => .inr ⟨rfl, earlier⟩
  · refine m.places_pairwise.imp fun earlier k hk l hl => ?_
    obtain ⟨_, _, rfl⟩ := List.mem_map.mp hk
    obtain ⟨_, _, rfl⟩ := List.mem_map.mp hl
    exact .inl earlier

/-- Where the repeated annotations of a model are taken away, each concept keeps its first ones. -/
theorem concepts_without_repetitions (m : Model) :
    (m.without m.repetitions).concepts = m.concepts.map (·.mapAnnotations firsts) := by
  apply concepts_mapAnnotations
  intro p c hc
  unfold firsts
  congr 1
  apply List.filter_congr
  intro e _
  apply decide_eq_decide.mpr
  rw [not_congr mem_repetitions_iff]
  simp [hc]

end Model

/-- In the row of a concept the annotations that are taken away are missed in one column only. -/
theorem Row.ofConcept_firsts (c : Concept) :
    Row.ofConcept (c.mapAnnotations firsts) =
      { Row.ofConcept c with annotations := (Row.ofConcept c).annotations.eraseDups } := by
  have same : ∀ i ∈ Directives.inputs,
      Lookup.value? (c.mapAnnotations firsts) i.1 i.2 = Lookup.value? c i.1 i.2 := by
    intro i _
    exact congrArg (Option.bind · fun a => a.find? i.2) (Lookup.first?_firsts c.annotations i.1)
  unfold Row.ofConcept
  rw [Directives.resolve_congr same, Directives.breaches_congr_values same, ← map_name_firsts]
  rfl

theorem Totals.ofRows_eraseDups (rows : List Row) :
    ofRows (rows.map fun r => { r with annotations := r.annotations.eraseDups }) = ofRows rows := by
  have annotated : ∀ names : List String, names.eraseDups = [] ↔ names = [] := by
    intro names
    cases names with
    | nil => rfl
    | cons name names => simp [List.eraseDups_cons]
  simp [ofRows_eq, List.countP_map, Function.comp_def, annotated]

namespace Report

theorem rows_without_repetitions (m : Model) :
    (ofModel (m.without m.repetitions)).rows =
      (ofModel m).rows.map fun r => { r with annotations := r.annotations.eraseDups } := by
  show (Model.concepts _).map Row.ofConcept = (m.concepts.map Row.ofConcept).map _
  rw [m.concepts_without_repetitions, List.map_map, List.map_map]
  exact List.map_congr_left fun c _ => Row.ofConcept_firsts c

theorem totals_without_repetitions (m : Model) :
    (ofModel (m.without m.repetitions)).totals = (ofModel m).totals := by
  show Totals.ofRows (ofModel (m.without m.repetitions)).rows = Totals.ofRows (ofModel m).rows
  rw [rows_without_repetitions, Totals.ofRows_eraseDups]

end Report

end ModelDirectives
