import ModelDirectives.Proofs.DocumentReports
import ModelDirectives.Proofs.Places

namespace ModelDirectives

namespace Model

variable {m : Model}

theorem concepts_forall₂_places (m : Model) :
    List.Forall₂ (fun p c => m.concept? p = some c) m.places m.concepts := by
  have each : List.Forall₂ Eq (m.places.map m.concept?) (m.concepts.map some) := by
    rw [map_some_concepts, List.forall₂_eq_eq_eq]
  rwa [List.forall₂_map_left_iff, List.forall₂_map_right_iff] at each

theorem mem_concepts_iff {c : Concept} : c ∈ m.concepts ↔ ∃ p, m.concept? p = some c := by
  have same : c ∈ m.concepts ↔ some c ∈ m.places.map m.concept? := by
    rw [← map_some_concepts, List.mem_map_of_injective (Option.some_injective _)]
  rw [same, List.mem_map]
  constructor
  · intro h
    obtain ⟨p, -, hp⟩ := h
    exact ⟨p, hp⟩
  · intro h
    obtain ⟨p, hp⟩ := h
    exact ⟨p, mem_places_iff.mpr (Option.isSome_of_eq_some hp), hp⟩

theorem length_concepts (m : Model) : m.concepts.length = m.types.length +
    (m.types.map fun t => t.attributes.length + t.methods.length + t.values.length).sum := by
  unfold concepts
  induction m.types with
  | nil => rfl
  | cons t ts ih =>
    have own : t.concepts.length =
        t.attributes.length + t.methods.length + t.values.length + 1 := by
      simp [TypeDef.concepts, Nat.add_assoc]
    rw [List.flatMap_cons, List.length_append, ih, own, List.map_cons, List.sum_cons,
      List.length_cons]
    omega

theorem length_places (m : Model) : m.places.length = m.concepts.length := by
  simpa using (congrArg List.length m.map_some_concepts).symm

theorem concepts_append (m m' : Model) :
    concepts ⟨m.types ++ m'.types⟩ = m.concepts ++ m'.concepts :=
  List.flatMap_append

end Model

theorem Totals.ofRows_append (xs ys : List Row) : ofRows (xs ++ ys) =
    ⟨(ofRows xs).concepts + (ofRows ys).concepts, (ofRows xs).annotated + (ofRows ys).annotated,
      (ofRows xs).problems + (ofRows ys).problems⟩ := by
  simp only [ofRows_eq, List.length_append, List.countP_append, List.map_append, List.sum_append]

/-- How a directive in `json` whose value is of the wrong kind is told of. -/
inductive LookupError.Reads : LookupError → String → Prop
  | bool (parameter : String) : Reads (.mismatch "json" parameter .string .bool)
    ("parameter `" ++ parameter ++ "` of annotation `json` is a bool, expected string")
  | string (parameter : String) : Reads (.mismatch "json" parameter .bool .string)
    ("parameter `" ++ parameter ++ "` of annotation `json` is a string, expected bool")

theorem Directives.reads_of_mem_breaches {α : Type} [Annotated α] {concept : α} {e : LookupError}
    (h : e ∈ breaches concept) : e.Reads e.message := by
  rcases mem_breaches_iff_written.mp h with ⟨p, -, b, -, rfl⟩ | ⟨p, -, s, -, rfl⟩
  · rw [message_in_json]
    exact .bool p
  · rw [message_in_json]
    exact .string p

/-- What a row says of a concept. -/
structure Row.Shows (r : Row) (c : Concept) : Prop where
  path : r.path = c.path
  kind : r.kind = c.kind
  annotations : r.annotations = c.annotations.map (·.name)
  directives : r.directives.AsWritten c.annotations
  problems : List.Forall₂ LookupError.Reads (Directives.breaches c.annotations) r.problems

/-- The row of a concept has its path, its kind, its names of annotations, its directives and its
problems. -/
theorem Row.ofConcept_shows (c : Concept) : (Row.ofConcept c).Shows c where
  path := rfl
  kind := rfl
  annotations := rfl
  directives := Directives.resolve_asWritten c
  problems := by
    show List.Forall₂ _ _ ((Directives.breaches c).map LookupError.message)
    rw [List.forall₂_map_right_iff]
    exact List.forall₂_same.mpr fun e he => Directives.reads_of_mem_breaches he

namespace Report

variable (m : Model)

theorem map_some_rows :
    (ofModel m).rows.map some = m.places.map fun p => (m.concept? p).map Row.ofConcept := by
  calc (m.concepts.map Row.ofConcept).map some
      = (m.concepts.map some).map (Option.map Row.ofConcept) := by
        rw [List.map_map, List.map_map]
        rfl
    _ = (m.places.map m.concept?).map (Option.map Row.ofConcept) := by rw [m.map_some_concepts]
    _ = m.places.map fun p => (m.concept? p).map Row.ofConcept := List.map_map ..

/-- Rows and places correspond one by one. -/
theorem rows_forall₂_places : List.Forall₂ (fun p r => ∃ c, m.concept? p = some c ∧ r.Shows c)
    m.places (ofModel m).rows := by
  show List.Forall₂ _ m.places (m.concepts.map Row.ofConcept)
  rw [List.forall₂_map_right_iff]
  exact m.concepts_forall₂_places.imp fun p c hc => ⟨c, hc, Row.ofConcept_shows c⟩

theorem totals_concepts : (ofModel m).totals.concepts = m.concepts.length :=
  List.length_map ..

theorem totals_annotated : (ofModel m).totals.annotated =
    m.sumOver fun annotations => if annotations = [] then 0 else 1 := by
  show (Totals.ofRows _).annotated = _
  rw [Totals.ofRows_eq, ← m.sum_concepts]
  show ((m.concepts.map Row.ofConcept).countP _) = _
  rw [List.countP_map]
  induction m.concepts with
  | nil => rfl
  | cons c cs ih =>
    rw [List.countP_cons, ih]
    cases h : c.annotations <;> simp [Row.ofConcept, h, Nat.add_comm]

theorem totals_problems : (ofModel m).totals.problems =
    m.sumOver fun annotations => (Directives.breaches annotations).length := by
  show (Totals.ofRows _).problems = _
  rw [Totals.ofRows_eq, ← m.sum_concepts]
  show ((m.concepts.map Row.ofConcept).map (·.problems.length)).sum = _
  rw [List.map_map]
  congr 1
  exact List.map_congr_left fun c _ => List.length_map ..

/-- There are problems when some concept has a breach. -/
theorem hasProblems_iff : (ofModel m).hasProblems ↔
    ∃ p c, m.concept? p = some c ∧ Directives.breaches c ≠ [] := by
  have positive : (ofModel m).hasProblems ↔ 0 < (ofModel m).totals.problems := decide_eq_true_iff
  rw [positive, totals_problems, ← m.sum_concepts, List.sum_pos_iff_exists_pos_nat]
  constructor
  · intro h
    obtain ⟨n, hn, pos⟩ := h
    obtain ⟨c, hc, rfl⟩ := List.mem_map.mp hn
    obtain ⟨p, hp⟩ := Model.mem_concepts_iff.mp hc
    exact ⟨p, c, hp, List.length_pos_iff.mp pos⟩
  · intro h
    obtain ⟨p, c, hp, broken⟩ := h
    exact ⟨_, List.mem_map_of_mem (Model.mem_concepts_iff.mpr ⟨p, hp⟩),
      List.length_pos_iff.mpr broken⟩

def warnings (r : Report) : List Notice :=
  r.notices.filter (·.level = .warning)

theorem warnings_eq (r : Report) :
    r.warnings = r.rows.flatMap fun row => row.problems.map (Notice.problem row.path) := by
  have all : ∀ n ∈ r.rows.flatMap fun row => row.problems.map (Notice.problem row.path),
      decide (n.level = .warning) = true := by
    intro n hn
    obtain ⟨row, -, hn⟩ := List.mem_flatMap.mp hn
    obtain ⟨text, -, rfl⟩ := List.mem_map.mp hn
    rfl
  unfold warnings notices
  rw [List.filter_append, List.filter_eq_self.mpr all]
  exact List.append_nil _

theorem notices_told (r : Report) : r.notices.map (fun n => (n.level, n.message)) =
    (r.rows.flatMap fun row => row.problems.map fun text =>
      (Level.warning, row.path ++ ": " ++ text)) ++
      [(.detail, "resolved " ++ Decimal.text r.totals.concepts ++ " concepts (" ++
        Decimal.text r.totals.annotated ++ " annotated, " ++ Decimal.text r.totals.problems ++
        " problems)")] := by
  unfold notices
  rw [List.map_append, List.map_flatMap]
  simp only [List.map_map]
  rfl

variable (m' : Model)

theorem rows_append :
    (ofModel ⟨m.types ++ m'.types⟩).rows = (ofModel m).rows ++ (ofModel m').rows := by
  show (Model.concepts _).map _ = _
  rw [Model.concepts_append, List.map_append]
  rfl

theorem totals_append : (ofModel ⟨m.types ++ m'.types⟩).totals =
    ⟨(ofModel m).totals.concepts + (ofModel m').totals.concepts,
      (ofModel m).totals.annotated + (ofModel m').totals.annotated,
      (ofModel m).totals.problems + (ofModel m').totals.problems⟩ := by
  show Totals.ofRows (ofModel ⟨m.types ++ m'.types⟩).rows = _
  rw [rows_append, Totals.ofRows_append]
  rfl

theorem warnings_append : (ofModel ⟨m.types ++ m'.types⟩).warnings =
    (ofModel m).warnings ++ (ofModel m').warnings := by
  rw [warnings_eq, warnings_eq, warnings_eq, rows_append, List.flatMap_append]

/-- The report of a model, whatever its names: there is one row for the concept at each place, in
the order of the places; the totals count all concepts, those with annotations and the directives
among them that cannot be read; each problem is told of in a warning, in the order of the rows, and
the totals at the end. Where the types of two models are put together, so are their rows, totals and
warnings. -/
theorem complete_and_compositional (m : Model) :
    m.places.Pairwise Place.Before ∧ (∀ p, p ∈ m.places ↔ (m.concept? p).isSome) ∧
    List.Forall₂ (fun p r => ∃ c, m.concept? p = some c ∧ r.Shows c) m.places (ofModel m).rows ∧
    (ofModel m).totals.concepts = m.types.length +
      (m.types.map fun t => t.attributes.length + t.methods.length + t.values.length).sum ∧
    (ofModel m).totals.annotated =
      m.sumOver (fun annotations => if annotations = [] then 0 else 1) ∧
    (ofModel m).totals.problems =
      m.sumOver (fun annotations => (Directives.breaches annotations).length) ∧
    ((ofModel m).hasProblems ↔ ∃ p c, m.concept? p = some c ∧ Directives.breaches c ≠ []) ∧
    (ofModel m).notices.map (fun n => (n.level, n.message)) =
      ((ofModel m).rows.flatMap fun row => row.problems.map fun text =>
        (Level.warning, row.path ++ ": " ++ text)) ++
        [(.detail, "resolved " ++ Decimal.text (ofModel m).totals.concepts ++ " concepts (" ++
          Decimal.text (ofModel m).totals.annotated ++ " annotated, " ++
          Decimal.text (ofModel m).totals.problems ++ " problems)")] ∧
    ∀ m' : Model,
      (ofModel ⟨m.types ++ m'.types⟩).rows = (ofModel m).rows ++ (ofModel m').rows ∧
      (ofModel ⟨m.types ++ m'.types⟩).totals =
        ⟨(ofModel m).totals.concepts + (ofModel m').totals.concepts,
          (ofModel m).totals.annotated + (ofModel m').totals.annotated,
          (ofModel m).totals.problems + (ofModel m').totals.problems⟩ ∧
      (ofModel ⟨m.types ++ m'.types⟩).warnings =
        (ofModel m).warnings ++ (ofModel m').warnings := by
  refine ⟨m.places_pairwise, fun p => Model.mem_places_iff, rows_forall₂_places m, ?_,
    totals_annotated m, totals_problems m, hasProblems_iff m, notices_told _, fun m' => ?_⟩
  · rw [totals_concepts, m.length_concepts]
  · exact ⟨rows_append m m', totals_append m m', warnings_append m m'⟩

end Report

end ModelDirectives
