import ModelDirectives.Proofs.FirstViolation
import ModelDirectives.Proofs.Paths
import ModelDirectives.Proofs.RepetitionPositions

namespace ModelDirectives

open Remark

/-- Whether a notice is a warning of a repeated annotation on the concept with a path. -/
def Notice.isRepetitionOn (path : String) : Notice → Bool
  | .annotationRepeated owner _ => owner = path
  | .problem .. | .loaded .. | .resolved .. => false

namespace Concept

theorem countP_warnings (c : Concept) :
    c.warnings.countP (·.isRepetitionOn c.path) = (repeated c.annotations).length := by
  unfold warnings
  rw [List.countP_map, List.countP_eq_length]
  simp [Notice.isRepetitionOn]

theorem countP_warnings_of_ne {cs : List Concept} {path : String}
    (other : ∀ c ∈ cs, c.path ≠ path) :
    (cs.flatMap warnings).countP (·.isRepetitionOn path) = 0 := by
  rw [List.countP_eq_zero]
  intro n hn
  obtain ⟨c, hc, hn⟩ := List.mem_flatMap.mp hn
  obtain ⟨e, -, rfl⟩ := List.mem_map.mp hn
  simpa [Notice.isRepetitionOn] using other c hc

end Concept

/-- Where paths are different, the warnings on a concept are those of that concept alone. -/
theorem countP_warnings_of_mem {cs : List Concept} (distinct : (cs.map (·.path)).Nodup)
    {c : Concept} (hc : c ∈ cs) :
    (cs.flatMap Concept.warnings).countP (·.isRepetitionOn c.path) =
      (repeated c.annotations).length := by
  obtain ⟨before, after, rfl⟩ := List.append_of_mem hc
  rw [List.map_append, List.map_cons, List.nodup_middle, List.nodup_cons, ← List.map_append]
    at distinct
  have others : ∀ c' ∈ before ++ after, c'.path ≠ c.path := fun c' hc' same =>
    distinct.1 (same ▸ List.mem_map_of_mem hc')
  obtain ⟨front, behind⟩ := List.forall_mem_append.mp others
  rw [List.flatMap_append, List.flatMap_cons, List.countP_append, List.countP_append,
    Concept.countP_warnings_of_ne front, Concept.countP_warnings_of_ne behind, c.countP_warnings,
    Nat.zero_add, Nat.add_zero]

namespace Model

variable {m : Model}

/-- The warning of the annotation at a position, and how it reads. -/
inductive Warns (m : Model) : Position → Level × String → Prop
  | intro {p : Place} {i : Nat} {c : Concept} {a : Annotation} (there : m.concept? p = some c)
      (here : c.annotations[i]? = some a) :
    Warns m ⟨p, i⟩ (.warning, c.path ++ " carries annotation @" ++ a.name ++
      " more than once; only the first is used")

/-- There is one warning for each repetition, in the same order. -/
theorem warnings_forall₂ (m : Model) :
    List.Forall₂ m.Warns m.repetitions
      ((m.concepts.flatMap Concept.warnings).map fun n => (n.level, n.message)) := by
  rw [List.map_flatMap]
  apply List.rel_flatMap m.concepts_forall₂_places
  intro p c hc
  show List.Forall₂ m.Warns ((repeated (m.annotationsAt p)).map fun e => ⟨p, e.2⟩)
    (c.warnings.map fun n => (n.level, n.message))
  rw [annotationsAt_of_concept? hc, Concept.warnings, List.map_map, List.forall₂_map_left_iff,
    List.forall₂_map_right_iff, List.forall₂_same]
  intro e he
  exact .intro hc (mem_repeated_iff.mp he).1

theorem paths_concepts_nodup (h : m.WellFormed) : (m.concepts.map (·.path)).Nodup := by
  have rows := paths_nodup h
  rwa [Report.ofModel, List.map_map] at rows

end Model

namespace Document

/-- An accepted document is logged by its warnings and the number of its types. -/
theorem notices_of_accepted {d : Document} {m : Model} (distinct : d.KeysDistinct)
    (accepted : d.check.verdict = .ok m) :
    d.check.notices = m.concepts.flatMap Concept.warnings ++ [.loaded m.types.length] := by
  obtain ⟨-, rfl⟩ := (verdict_eq_ok_iff distinct).mp accepted
  rw [d.check_tells.notices_of_ok accepted, told_remarks, image, List.length_map]

/-- When a document is accepted, its log warns of the repeated annotations of the model, one by one
and in order, and then tells the number of types. The annotations without a warning are those that a
lookup reaches, so each concept has as many warnings as it has annotations more than names of
annotations. Without the annotations that are warned of the report is the same, except that its rows
list no name twice. -/
theorem warnings_mark_unreachable {d : Document} {m : Model} (distinct : d.KeysDistinct)
    (accepted : d.check.verdict = .ok m) :
    (∃ warnings, d.check.notices.map (fun n => (n.level, n.message)) =
        warnings ++ [(.detail, "loaded model with " ++ Decimal.text m.types.length ++ " types")] ∧
      List.Forall₂ m.Warns m.repetitions warnings) ∧
    m.repetitions.Pairwise Position.Before ∧
    (∀ k, k ∈ m.repetitions ↔
      ∃ c, m.concept? k.place = some c ∧ RepeatedAt c.annotations k.index) ∧
    (∀ p c, m.concept? p = some c →
      (∀ i < c.annotations.length, ⟨p, i⟩ ∉ m.repetitions ↔ Lookup.Reaches c.annotations i) ∧
      d.check.notices.countP (·.isRepetitionOn c.path) +
        (c.annotations.map (·.name)).eraseDups.length = c.annotations.length) ∧
    (Report.ofModel (m.without m.repetitions)).rows =
      (Report.ofModel m).rows.map (fun r => { r with annotations := r.annotations.eraseDups }) ∧
    (Report.ofModel (m.without m.repetitions)).totals = (Report.ofModel m).totals := by
  have log := notices_of_accepted distinct accepted
  have paths := Model.paths_concepts_nodup (wellFormed_of_check distinct accepted)
  have lines : d.check.notices.map (fun n => (n.level, n.message)) =
      (m.concepts.flatMap Concept.warnings).map (fun n => (n.level, n.message)) ++
        [(.detail, "loaded model with " ++ Decimal.text m.types.length ++ " types")] := by
    rw [log, List.map_append]
    rfl
  refine ⟨⟨_, lines, m.warnings_forall₂⟩, m.repetitions_pairwise,
    fun _ => Model.mem_repetitions_iff, fun p c hc => ⟨fun i hi => ?_, ?_⟩,
    Report.rows_without_repetitions m, Report.totals_without_repetitions m⟩
  · rw [Lookup.reaches_iff hi, Model.mem_repetitions_iff]
    simp [hc]
  · have told : (Notice.loaded m.types.length).isRepetitionOn c.path = false := rfl
    rw [log, List.countP_append, List.countP_singleton, told,
      countP_warnings_of_mem paths (Model.mem_concepts_iff.mpr ⟨p, hc⟩)]
    exact length_repeated c.annotations

/-- A document with annotations that come back, alike or not, with others between them. -/
def interleaved : Document :=
  ⟨[⟨"Color", .enum, [⟨"json", [("name", .string "c")]⟩, ⟨"go", []⟩,
      ⟨"json", [("name", .string "c")]⟩, ⟨"json", [("default", .bool true)]⟩, ⟨"go", []⟩],
    [⟨"id", "String", [⟨"json", [("default", .bool true)]⟩, ⟨"json", []⟩]⟩], [⟨"get", []⟩],
    [⟨"red", [⟨"go", []⟩]⟩]⟩]⟩

theorem warnings_mark_unreachable_interleaved :
    interleaved.KeysDistinct ∧ interleaved.check.verdict = .ok interleaved.image ∧
      interleaved.check.notices.map (fun n => (n.level, n.message)) =
        [(.warning, "Color carries annotation @json more than once; only the first is used"),
          (.warning, "Color carries annotation @json more than once; only the first is used"),
          (.warning, "Color carries annotation @go more than once; only the first is used"),
          (.warning, "Color.id carries annotation @json more than once; only the first is used"),
          (.detail, "loaded model with 1 types")] ∧
      interleaved.image.repetitions =
        [⟨⟨0, .self⟩, 2⟩, ⟨⟨0, .self⟩, 3⟩, ⟨⟨0, .self⟩, 4⟩, ⟨⟨0, .attribute 0⟩, 1⟩] ∧
      Lookup.Reaches (interleaved.image.annotationsAt ⟨0, .self⟩) 1 ∧
      ¬Lookup.Reaches (interleaved.image.annotationsAt ⟨0, .self⟩) 2 ∧
      (Report.ofModel interleaved.image).totals = ⟨4, 3, 1⟩ ∧
      (Report.ofModel (interleaved.image.without interleaved.image.repetitions)).totals =
        (Report.ofModel interleaved.image).totals := by
  have distinct : interleaved.KeysDistinct := by decide
  have accepted : interleaved.check.verdict = .ok interleaved.image := rfl
  obtain ⟨-, -, -, concepts, -, totals⟩ := warnings_mark_unreachable distinct accepted
  obtain ⟨reached, -⟩ := concepts ⟨0, .self⟩ _ rfl
  have first := (reached 1 (by decide)).mp (by decide)
  have again := mt (reached 2 (by decide)).mpr (by decide)
  exact ⟨distinct, accepted, rfl, by decide, first, again, rfl, totals⟩

end Document

end ModelDirectives
