import ModelDirectives.Proofs.DocumentChecks
import ModelDirectives.Proofs.RemarkNotices

namespace ModelDirectives

open Remark

/-- A check that is passed gives all the notices among its remarks. -/
theorem Check.Tells.notices_of_ok {α : Type} {c : Check α} {rs : List Remark} {x y : α}
    (h : c.Tells rs x) (passed : c.verdict = .ok y) : c.notices = told rs := by
  cases h with
  | passed ns x =>
    show ns = (ns.map Remark.notice).filterMap notice?
    rw [List.filterMap_map]
    exact List.filterMap_some.symm
  | stopped ns v unsaid x => cases passed

namespace Document

/-- What is said of a document before the first violation is that annotations are repeated. -/
theorem repeated_of_stopped {d : Document} {log : List Notice} {v : Violation}
    {unsaid : List Remark} (h : d.remarks = log.map .notice ++ .violation v :: unsaid) {n : Notice}
    (hn : n ∈ log) : ∃ owner name, n = .annotationRepeated owner name := by
  -- The number of types is told at the very end, which is behind the violation.
  have front := congrArg List.dropLast h
  rw [remarks, List.dropLast_concat, List.dropLast_append_cons] at front
  have said : Remark.notice n ∈ log.map .notice ++ (Remark.violation v :: unsaid).dropLast :=
    List.mem_append_left _ (List.mem_map_of_mem hn)
  rw [← front, List.mem_append] at said
  rcases said with ofType | none
  · obtain ⟨before, t, -, -, ht⟩ := mem_inTurn.mp ofType
    have warned := mem_told_iff.mpr ht
    rw [TypeEntry.told_remarks] at warned
    exact Concept.eq_of_mem_warnings warned
  · obtain ⟨-, other⟩ := mem_given.mp none
    cases other

/-- A document is refused for the first violation among the remarks on it, with a complaint that
reads as this violation does, and what is logged until then are the notices before that one, which
are about repeated annotations. It is accepted if there is no violation among them. -/
theorem first_violation_decides (d : Document) :
    (∀ log v, d.check = ⟨log, .error v⟩ ↔
      ∃ unsaid, d.remarks = log.map .notice ++ .violation v :: unsaid) ∧
    (∀ log text, (∃ v, d.check = ⟨log, .error v⟩ ∧ v.message = text) ↔
      ∃ v unsaid, d.remarks = log.map .notice ++ .violation v :: unsaid ∧ v.Reads text) ∧
    ((∃ m, d.check.verdict = .ok m) ↔ ∀ v, .violation v ∉ d.remarks) ∧
    ∀ log v, d.check = ⟨log, .error v⟩ → ∀ n ∈ log, ∃ owner name,
      n = .annotationRepeated owner name ∧ n.level = .warning ∧
        n.message =
          owner ++ " carries annotation @" ++ name ++
            " more than once; only the first is used" := by
  have told := d.check_tells
  refine ⟨fun log v => told.eq_error_iff, fun log text => exists_congr fun v => ?_,
    told.exists_ok_iff.trans fault?_eq_none_iff, fun log v refused n hn => ?_⟩
  · rw [told.eq_error_iff, Violation.reads_iff, exists_and_right, eq_comm (a := text)]
  · obtain ⟨unsaid, eq⟩ := told.eq_error_iff.mp refused
    obtain ⟨owner, name, rfl⟩ := repeated_of_stopped eq hn
    exact ⟨owner, name, rfl, rfl, rfl⟩

/-- A document that breaks rules in many places, with annotations that are repeated before and
behind the first of them. -/
def manyFaults : Document :=
  ⟨[⟨"A", .struct, [⟨"json", []⟩, ⟨"json", [("size", .array [])]⟩],
      [⟨"id", " ", [⟨"go", []⟩, ⟨"go", []⟩]⟩, ⟨"id", "String", []⟩], [⟨"id", []⟩], [⟨"", []⟩]⟩,
    ⟨"A", .classType, [], [], [], []⟩]⟩

theorem first_violation_decides_manyFaults :
    manyFaults.remarks =
      [.notice (.annotationRepeated "A" "json"),
        .violation (.unsupportedValue "size" "json" "A" (.array [])),
        .violation (.attributeUntyped "id" "A"), .notice (.annotationRepeated "A.id" "go"),
        .violation (.memberRepeated "id" "A"), .violation (.memberRepeated "id" "A"),
        .violation (.valuesOutsideEnum "A"), .violation (.invalidName .enumValue ""),
        .violation (.typeRepeated "A"), .notice (.loaded 2)] ∧
      manyFaults.check = ⟨[.annotationRepeated "A" "json"],
        .error (.unsupportedValue "size" "json" "A" (.array []))⟩ ∧
      (Violation.unsupportedValue "size" "json" "A" (.array [])).Reads
        "parameter size of @json on A has unsupported value []" := by
  have said : manyFaults.remarks = _ := rfl
  obtain ⟨decides, texts, -⟩ := manyFaults.first_violation_decides
  exact ⟨said, (decides _ _).mpr ⟨_, said⟩, .unsupportedValue "size" "json" "A" (.array [])⟩

end Document

end ModelDirectives
