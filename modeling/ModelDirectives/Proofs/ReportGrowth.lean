import ModelDirectives.Proofs.Additions
import ModelDirectives.Proofs.ReportCoverage

namespace ModelDirectives

namespace Lookup

variable {α β : Type} [Annotated α] [Annotated β] {x : α} {y : β} {name : String}

/-- Two concepts that no lookup of a name can tell apart. -/
structure Alike (name : String) (x : α) (y : β) : Prop where
  first : first? y name = first? x name
  value : ∀ p, value? y name p = value? x name p
  string : ∀ p, string y name p = string x name p
  text : ∀ p, text y name p = text x name p
  bool : ∀ p, bool y name p = bool x name p
  context : ∀ p, context y name p = context x name p
  strictParameter : ∀ p, Strict.parameter y name p = Strict.parameter x name p
  strictValue : ∀ p, Strict.value y name p = Strict.value x name p
  strictString : ∀ p, Strict.string y name p = Strict.string x name p
  strictBool : ∀ p, Strict.bool y name p = Strict.bool x name p
  strictContext : ∀ p, Strict.context y name p = Strict.context x name p

/-- All lookups of a name see the first annotation of that name only. -/
theorem alike_of_first? (same : first? y name = first? x name) : Alike name x y := by
  have value : ∀ p, value? y name p = value? x name p := fun p => by
    unfold value?
    rw [same]
  have parameter : ∀ p, Strict.parameter y name p = Strict.parameter x name p := fun p => by
    unfold Strict.parameter
    rw [same]
  have strict : ∀ p, Strict.value y name p = Strict.value x name p := fun p => by
    unfold Strict.value
    rw [parameter]
  have text : ∀ p, Strict.string y name p = Strict.string x name p := fun p => by
    unfold Strict.string
    rw [strict]
  exact
    { first := same
      value := value
      string := fun p => by unfold string; rw [value]
      text := fun p => by unfold Lookup.text; rw [value]
      bool := fun p => by unfold bool; rw [value]
      context := fun p => by unfold context; rw [value]
      strictParameter := parameter
      strictValue := strict
      strictString := text
      strictBool := fun p => by unfold Strict.bool; rw [strict]
      strictContext := fun p => by unfold Strict.context; rw [text] }

/-- Annotations that come behind others do not hide them. -/
theorem first?_of_prefix (longer : annotationsOf x <+: annotationsOf y)
    (carried : ∃ a ∈ annotationsOf x, a.name = name) : first? y name = first? x name := by
  obtain ⟨rest, eq⟩ := longer
  have found : (first? x name).isSome := by
    simpa [first?] using carried
  unfold first? at found ⊢
  rw [← eq, List.find?_append, Option.or_of_isSome found]

end Lookup

namespace Directives

variable {α β : Type} [Annotated α] [Annotated β] {x : α} {y : β}

theorem breaches_congr (alike : Lookup.Alike "json" x y) : breaches y = breaches x := by
  have each : ∀ r ∈ rules, Rule.breach? y r = Rule.breach? x r := by
    intro r hr
    have json : r.name = "json" := by
      revert r
      decide
    unfold Rule.breach?
    rw [json, alike.strictBool, alike.strictString]
  exact List.filterMap_congr each

theorem breaches_eq_nil (absent : ∀ a ∈ annotationsOf x, a.name ≠ "json") : breaches x = [] := by
  apply List.eq_nil_iff_forall_not_mem.mpr
  intro e he
  obtain ⟨p, _, v, -, written, -⟩ := mem_breaches_iff.mp he
  obtain ⟨a, ⟨before, behind, eq, named, -⟩, -⟩ := written
  exact absent a (by simp [eq]) named

/-- The directives in `json` as a generator sees them. -/
structure SameJson (d e : Directives) : Prop where
  name : e.jsonName = d.jsonName
  readOnly : e.jsonReadOnly = d.jsonReadOnly
  default : e.jsonDefault = d.jsonDefault
  required : e.jsonRequired = d.jsonRequired
  context : e.jsonContext = d.jsonContext

theorem resolve_sameJson (alike : Lookup.Alike "json" x y) : SameJson (resolve x) (resolve y) :=
  ⟨alike.string _, alike.bool _, alike.string _, alike.bool _, alike.context _⟩

/-- Further annotations can break rules only where there was no annotation for JSON. -/
theorem length_breaches_le {xs ys : List Annotation} (longer : xs <+: ys) :
    (breaches xs).length ≤ (breaches ys).length := by
  by_cases carried : ∃ a ∈ annotationsOf xs, a.name = "json"
  · have alike : Lookup.Alike "json" xs ys :=
      Lookup.alike_of_first? (Lookup.first?_of_prefix longer carried)
    rw [breaches_congr alike]
  · rw [breaches_eq_nil fun a ha named => carried ⟨a, ha, named⟩]
    exact Nat.zero_le _

end Directives

namespace Report

variable {m : Model} {s : Addition}

/-- What an addition to a model does to the report. A concept counts, an annotation does not, and
apart from the concept that is annotated the rows stay as they are. -/
structure Accrues (s : Addition) (m m' : Model) : Prop where
  concepts : (ofModel m').totals.concepts =
    (ofModel m).totals.concepts + if s.annotation? = none then 1 else 0
  annotated : (ofModel m).totals.annotated ≤ (ofModel m').totals.annotated
  problems : (ofModel m).totals.problems ≤ (ofModel m').totals.problems
  hasProblems : (ofModel m).hasProblems → (ofModel m').hasProblems
  others : s.annotation? ≠ none → m'.places = m.places ∧
    ∀ (k : Nat) (p : Place), m.places[k]? = some p → s.host? ≠ some p →
      (ofModel m').rows[k]? = (ofModel m).rows[k]?

theorem totals_concepts_add (fits : s.Fits m) : (ofModel (m.add s)).totals.concepts =
    (ofModel m).totals.concepts + if s.annotation? = none then 1 else 0 := by
  rw [totals_concepts, totals_concepts, ← Model.length_places, ← Model.length_places]
  cases added : s.annotation? with
  | none => rw [Model.length_places_added fits added, if_pos rfl]
  | some a => rw [Model.places_annotated fits added, if_neg (Option.some_ne_none a), Nat.add_zero]

theorem totals_annotated_le {m' : Model} (h : m.Extends m') :
    (ofModel m).totals.annotated ≤ (ofModel m').totals.annotated := by
  rw [totals_annotated, totals_annotated]
  apply h.sumOver_le
  intro xs ys longer
  by_cases empty : ys = []
  · rw [empty, List.prefix_nil] at longer
    rw [longer, empty]
  · rw [if_neg empty]
    split <;> omega

theorem totals_problems_le {m' : Model} (h : m.Extends m') :
    (ofModel m).totals.problems ≤ (ofModel m').totals.problems := by
  rw [totals_problems, totals_problems]
  exact h.sumOver_le fun _ _ => Directives.length_breaches_le

theorem hasProblems_of_extends {m' : Model} (h : m.Extends m')
    (problems : (ofModel m).hasProblems) : (ofModel m').hasProblems :=
  decide_eq_true (Nat.lt_of_lt_of_le (of_decide_eq_true problems) (totals_problems_le h))

/-- The row of a concept stays as it is while another one is annotated. -/
theorem rows_of_other {a : Annotation} (fits : s.Fits m) (added : s.annotation? = some a)
    {k : Nat} {p : Place} (stands : m.places[k]? = some p) (other : s.host? ≠ some p) :
    (ofModel (m.add s)).rows[k]? = (ofModel m).rows[k]? := by
  obtain ⟨q, host⟩ := s.exists_host added
  have apart : p ≠ q := fun same => other (same ▸ host)
  have row := congrArg (·[k]?) (map_some_rows m)
  have row' := congrArg (·[k]?) (map_some_rows (m.add s))
  simp only [List.getElem?_map, Model.places_annotated fits added, stands] at row row'
  rw [Option.map_some, Model.concept?_annotated fits host added, if_neg apart] at row'
  exact Option.map_injective (Option.some_injective _) (row'.trans row.symm)

theorem accrues (fits : s.Fits m) : Accrues s m (m.add s) where
  concepts := totals_concepts_add fits
  annotated := totals_annotated_le (Model.add_extends fits)
  problems := totals_problems_le (Model.add_extends fits)
  hasProblems := hasProblems_of_extends (Model.add_extends fits)
  others := by
    intro added
    obtain ⟨a, ha⟩ := Option.ne_none_iff_exists'.mp added
    exact ⟨Model.places_annotated fits ha, fun _ _ => rows_of_other fits ha⟩

theorem totals_concepts_addAll {steps : List Addition} (fits : m.Takes steps) :
    (ofModel (m.addAll steps)).totals.concepts =
      (ofModel m).totals.concepts + steps.countP (·.annotation? = none) := by
  induction steps generalizing m with
  | nil => rfl
  | cons s rest ih =>
    have step := totals_concepts_add fits.1
    have run := ih fits.2
    rw [List.countP_cons]
    simp only [decide_eq_true_eq]
    show (ofModel ((m.add s).addAll rest)).totals.concepts = _
    omega

end Report

namespace Model

/-- While a model is built up, each addition makes the report grow as it should, and so do several
of them: the concepts are counted, and what has been counted before stays. Once a concept carries an
annotation of some name, nothing that is added later is seen by a lookup of that name on it. -/
theorem additions_only_add {m : Model} {steps : List Addition} (fits : m.Takes steps) :
    (∀ earlier s later, steps = earlier ++ s :: later →
      Report.Accrues s (m.addAll earlier) (m.addAll (earlier ++ [s]))) ∧
    ∀ earlier later, steps = earlier ++ later →
      let now := m.addAll earlier
      let final := m.addAll steps
      (Report.ofModel final).totals.concepts =
        (Report.ofModel now).totals.concepts + later.countP (·.annotation? = none) ∧
      (Report.ofModel now).totals.annotated ≤ (Report.ofModel final).totals.annotated ∧
      (Report.ofModel now).totals.problems ≤ (Report.ofModel final).totals.problems ∧
      ((Report.ofModel now).hasProblems → (Report.ofModel final).hasProblems) ∧
      ∀ p c name, now.concept? p = some c → (∃ a ∈ c.annotations, a.name = name) →
        ∃ c', final.concept? p = some c' ∧ c'.path = c.path ∧ c'.kind = c.kind ∧
          Lookup.Alike name c c' ∧
          (name = "json" → Directives.breaches c' = Directives.breaches c ∧
            (Row.ofConcept c').problems = (Row.ofConcept c).problems ∧
            Directives.SameJson (Directives.resolve c) (Directives.resolve c')) := by
  constructor
  · intro earlier s later split
    subst split
    rw [addAll_append]
    exact Report.accrues (takes_append.mp fits).2.1
  · intro earlier later split now final
    subst split
    have rest : now.Takes later := (takes_append.mp fits).2
    have run : final = now.addAll later := addAll_append ..
    have grown : now.Extends final := run ▸ addAll_extends rest
    refine ⟨run ▸ Report.totals_concepts_addAll rest, Report.totals_annotated_le grown,
      Report.totals_problems_le grown, Report.hasProblems_of_extends grown, ?_⟩
    intro p c name hc carried
    obtain ⟨c', hc', path, kind, longer⟩ := grown p c hc
    have alike : Lookup.Alike name c c' :=
      Lookup.alike_of_first? (Lookup.first?_of_prefix longer carried)
    refine ⟨c', hc', path, kind, alike, ?_⟩
    intro json
    subst json
    have same := Directives.breaches_congr alike
    exact ⟨same, congrArg (List.map LookupError.message) same, Directives.resolve_sameJson alike⟩

/-- A type whose directive is a problem, an attribute of it, and then an annotation that would
mend the directive if it came first. -/
def mending : List Addition :=
  [.type "Address" .struct, .annotateType 0 ⟨"json", [⟨"readOnly", some (.string "yes")⟩]⟩,
    .attribute 0 "zip" "String", .annotateType 0 ⟨"json", [⟨"readOnly", some (.bool true)⟩]⟩]

theorem additions_only_add_mending :
    empty.Takes mending ∧
      Report.Accrues (.annotateType 0 ⟨"json", [⟨"readOnly", some (.bool true)⟩]⟩)
        (empty.addAll (mending.take 3)) (empty.addAll mending) ∧
      (Report.ofModel (empty.addAll (mending.take 2))).totals = ⟨1, 1, 1⟩ ∧
      (Report.ofModel (empty.addAll mending)).totals = ⟨2, 1, 1⟩ ∧
      ∃ c', (empty.addAll mending).concept? ⟨0, .self⟩ = some c' ∧
        c'.annotations.map (·.name) = ["json", "json"] ∧ (Row.ofConcept c').problems =
          ["parameter `readOnly` of annotation `json` is a string, expected bool"] := by
  have fits : empty.Takes mending := by decide
  obtain ⟨steps, runs⟩ := additions_only_add fits
  obtain ⟨-, -, -, -, kept⟩ := runs (mending.take 2) (mending.drop 2) rfl
  obtain ⟨c', hc', -, -, -, json⟩ := kept ⟨0, .self⟩ _ "json" rfl ⟨_, List.mem_cons_self, rfl⟩
  refine ⟨fits, steps (mending.take 3) _ [] rfl, rfl, rfl, c', hc', ?_, (json rfl).2.1⟩
  cases hc'
  rfl

end Model

end ModelDirectives
