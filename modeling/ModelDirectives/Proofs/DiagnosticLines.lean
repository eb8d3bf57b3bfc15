import ModelDirectives.Proofs.Acceptance
import ModelDirectives.Proofs.DirectiveValues
import ModelDirectives.Proofs.LineTexts
import ModelDirectives.Report

namespace ModelDirectives

/-- The names that stand in the text as they are. -/
def Subject.names : Subject → List String
  | .annotationOn owner => [owner]
  | .parameterOf name owner => [name, owner]
  | .type | .attribute | .method | .enumValue => []

/-- The names that stand in the message as they are. The one that is no identifier is quoted. -/
def Violation.names : Violation → List String
  | .invalidName subject _ => subject.names
  | .typeRepeated name => [name]
  | .memberRepeated name owner | .attributeUntyped name owner => [name, owner]
  | .unsupportedValue parameter name owner _ => [parameter, name, owner]
  | .valuesOutsideEnum owner => [owner]
  | .noTypes => []

/-- The names and texts that stand in the message as they are. -/
def Notice.names : Notice → List String
  | .annotationRepeated owner name => [owner, name]
  | .problem path text => [path, text]
  | .loaded _ | .resolved .. => []

theorem Subject.oneLine_text {s : Subject} (h : ∀ name ∈ s.names, OneLine name.toList) :
    OneLine s.text.toList := by
  cases s with
  | annotationOn owner | parameterOf name owner =>
    simp only [names, List.forall_mem_cons] at h
    unfold text
    simp [h]
  | _ => decide

theorem Violation.oneLine_message {v : Violation} (h : ∀ name ∈ v.names, OneLine name.toList) :
    OneLine v.message.toList := by
  unfold message
  cases v with
  | invalidName subject name =>
    simp [Identifier.complaint, Subject.oneLine_text h, Text.oneLine_quoted]
  | typeRepeated name | valuesOutsideEnum owner | memberRepeated name owner
  | attributeUntyped name owner =>
    simp only [names, List.forall_mem_cons] at h
    simp [h]
  | unsupportedValue parameter name owner value =>
    simp only [names, List.forall_mem_cons] at h
    simp [h, Json.oneLine_compactText]
  | noTypes => decide

theorem Notice.oneLine_line {n : Notice} (h : ∀ name ∈ n.names, OneLine name.toList) :
    OneLine n.line.toList := by
  have level : OneLine n.level.label.toList := by cases n.level <;> decide
  have message : OneLine n.message.toList := by
    unfold message
    cases n with
    | annotationRepeated owner name | problem owner name =>
      simp only [names, List.forall_mem_cons] at h
      simp [h]
    | loaded types | resolved concepts annotated problems => simp [Decimal.oneLine_text]
  simp [line, level, message]

namespace Remark

/-- What is told of the remarks keeps to one line: all of them up to the first violation, and that
violation itself. -/
def OnLines : List Remark → Prop
  | [] => True
  | .notice n :: rs => OneLine n.line.toList ∧ OnLines rs
  | .violation v :: _ => OneLine v.message.toList

variable {rs ss : List Remark}

/-- Remarks behind others are told only when there is no violation among those. -/
theorem OnLines.append (h : OnLines rs) (later : fault? rs = none → OnLines ss) :
    OnLines (rs ++ ss) := by
  induction rs with
  | nil => exact later rfl
  | cons r rs ih =>
    cases r with
    | notice n => exact ⟨h.1, ih h.2 later⟩
    | violation v => exact h

section Given

variable {occasion : Prop} [Decidable occasion]

theorem onLines_given_violation {v : Violation} (h : ∀ name ∈ v.names, OneLine name.toList) :
    OnLines (given occasion (.violation v)) := by
  unfold given
  split
  next => exact v.oneLine_message h
  next => exact trivial

theorem onLines_given_notice {n : Notice} (h : ∀ name ∈ n.names, OneLine name.toList) :
    OnLines (given occasion (.notice n)) := by
  unfold given
  split
  next => exact ⟨n.oneLine_line h, trivial⟩
  next => exact trivial

end Given

/-- What follows a complaint about a name is told only when the name is an identifier, so it may
have this name in it. -/
theorem onLines_named {subject : Subject} {name : String}
    (h : ∀ other ∈ subject.names, OneLine other.toList)
    (later : OneLine name.toList → OnLines rs) :
    OnLines (given (¬IsIdentifier name) (.violation (.invalidName subject name)) ++ rs) := by
  have complaint : ∀ other ∈ (Violation.invalidName subject name).names, OneLine other.toList := h
  refine (onLines_given_violation complaint).append fun none => later ?_
  have named : IsIdentifier name := by simpa [fault?_given_violation] using none
  exact named.oneLine

variable {α : Type}

theorem onLines_flatMap {remarks : α → List Remark} (item : ∀ x, OnLines (remarks x))
    (xs : List α) : OnLines (xs.flatMap remarks) := by
  induction xs with
  | nil => exact trivial
  | cons x xs ih => exact (item x).append fun _ => ih

theorem onLines_inTurn {remarks : List α → α → List Remark}
    (item : ∀ before x, OnLines (remarks before x)) (xs : List α) :
    OnLines (inTurn remarks xs) := by
  induction xs using List.reverseRecOn with
  | nil => exact trivial
  | append_singleton xs x ih =>
    rw [inTurn_concat]
    exact ih.append fun _ => item xs x

end Remark

open Remark

namespace Check

variable {α : Type} {c : Check α} {rs : List Remark} {x : α}

/-- All notices that are told stand before the first violation. -/
theorem Tells.oneLine_notices (h : c.Tells rs x) (lines : OnLines rs) :
    ∀ n ∈ c.notices, OneLine n.line.toList := by
  have front : ∀ (ns : List Notice) (ss : List Remark), OnLines (ns.map .notice ++ ss) →
      ∀ n ∈ ns, OneLine n.line.toList := by
    intro ns ss lines
    induction ns with
    | nil => exact List.forall_mem_nil _
    | cons n ns ih => exact List.forall_mem_cons.mpr ⟨lines.1, ih lines.2⟩
  cases h with
  | passed ns x => exact front ns [] (by rwa [List.append_nil])
  | stopped ns v unsaid x => exact front ns _ lines

theorem Tells.oneLine_message (h : c.Tells rs x) (lines : OnLines rs) {v : Violation}
    (refused : c.verdict = .error v) : OneLine v.message.toList := by
  have first := h.verdict_eq_error_iff.mp refused
  clear h refused
  induction rs with
  | nil => cases first
  | cons r rs ih =>
    cases r with
    | notice n => exact ih lines.2 first
    | violation w =>
      cases first
      exact lines

end Check

section Owner

variable {owner : String}

theorem oneLine_memberPath {name : String} (ho : OneLine owner.toList) (hn : OneLine name.toList) :
    OneLine (memberPath owner name).toList := by
  simp only [memberPath, String.toList_append, OneLine.append_iff]
  exact ⟨⟨ho, by decide⟩, hn⟩

theorem AnnotationEntry.onLines_remarks (ho : OneLine owner.toList)
    (before : List AnnotationEntry) (e : AnnotationEntry) : OnLines (e.remarks owner before) := by
  unfold remarks
  rw [List.append_assoc]
  refine onLines_named (by simp [Subject.names, ho]) fun hn => ?_
  refine (onLines_given_notice (by simp [Notice.names, ho, hn])).append fun _ => ?_
  refine onLines_flatMap (fun m => ?_) e.parameters
  refine onLines_named (by simp [Subject.names, ho, hn]) fun hm => ?_
  exact onLines_given_violation (by simp [Violation.names, ho, hn, hm])

theorem onLines_annotations (ho : OneLine owner.toList) (es : List AnnotationEntry) :
    OnLines (inTurn (AnnotationEntry.remarks owner) es) :=
  onLines_inTurn (AnnotationEntry.onLines_remarks ho) es

theorem AttributeEntry.onLines_remarks (ho : OneLine owner.toList) (e : AttributeEntry)
    (hn : OneLine e.name.toList) : OnLines (e.remarks owner) :=
  (onLines_given_violation (by simp [Violation.names, ho, hn])).append fun _ =>
    onLines_annotations (oneLine_memberPath ho hn) e.annotations

theorem MemberEntry.onLines_remarks (ho : OneLine owner.toList) (e : MemberEntry)
    (hn : OneLine e.name.toList) : OnLines (e.remarks owner) :=
  onLines_annotations (oneLine_memberPath ho hn) e.annotations

theorem onLines_members {ε : Type} {subject : Subject} {nameOf : ε → String}
    {others : List String} {parts : ε → List Remark} (plain : subject.names = [])
    (ho : OneLine owner.toList) (item : ∀ e, OneLine (nameOf e).toList → OnLines (parts e))
    (es : List ε) : OnLines (inTurn (memberRemarks subject owner nameOf others parts) es) := by
  refine onLines_inTurn (fun before e => ?_) es
  unfold memberRemarks
  rw [List.append_assoc]
  refine onLines_named (by simp [plain]) fun hn => ?_
  exact (onLines_given_violation (by simp [Violation.names, ho, hn])).append fun _ => item e hn

end Owner

/-- Every remark on a type stands behind the checks of the names in it. -/
theorem TypeEntry.onLines_remarks (before : List TypeEntry) (t : TypeEntry) :
    OnLines (t.remarks before) := by
  unfold remarks
  simp only [List.append_assoc]
  refine onLines_named (by simp [Subject.names]) fun hn => ?_
  refine (onLines_given_violation (by simp [Violation.names, hn])).append fun _ => ?_
  refine (onLines_annotations hn t.annotations).append fun _ => ?_
  refine (onLines_members rfl hn (AttributeEntry.onLines_remarks hn) t.attributes).append
    fun _ => ?_
  refine (onLines_members rfl hn (MemberEntry.onLines_remarks hn) t.methods).append fun _ => ?_
  refine (onLines_given_violation (by simp [Violation.names, hn])).append fun _ => ?_
  exact onLines_members rfl hn (MemberEntry.onLines_remarks hn) t.values

namespace Document

theorem onLines_remarks (d : Document) : OnLines d.remarks := by
  refine OnLines.append (OnLines.append ?_ fun _ => ?_) fun _ => ?_
  · exact onLines_inTurn TypeEntry.onLines_remarks d.types
  · exact onLines_given_violation (by simp [Violation.names])
  · exact ⟨Notice.oneLine_line (by simp [Notice.names]), trivial⟩

theorem paths_mapAnnotations (d : Document) (read : AnnotationEntry → AnnotationEntry) :
    (d.mapAnnotations read).image.concepts.map (·.path) = d.image.concepts.map (·.path) := by
  simp [mapAnnotations, image, Model.concepts, TypeDef.concepts, TypeEntry.mapAnnotations,
    TypeEntry.image, AttributeEntry.mapAnnotations, AttributeEntry.image,
    MemberEntry.mapAnnotations, MemberEntry.methodImage, MemberEntry.valueImage, Function.comp_def,
    List.map_flatMap, List.flatMap_map]

theorem Acceptable.oneLine_path {d : Document} (h : d.Acceptable) :
    ∀ c ∈ d.image.concepts, OneLine c.path.toList := by
  refine List.forall_mem_flatMap.mpr (List.forall_mem_map.mpr fun t ht => ?_)
  have owner := (h.names t ht).oneLine
  have members := (h.types t ht).members
  simp only [TypeEntry.memberNames, List.forall_mem_append, List.forall_mem_map] at members
  obtain ⟨attributes, methods, values⟩ := members
  simp only [TypeDef.concepts, TypeEntry.image, List.forall_mem_cons, List.forall_mem_append,
    List.forall_mem_map]
  exact ⟨owner, ⟨fun a ha => oneLine_memberPath owner (attributes a ha).oneLine,
    fun m hm => oneLine_memberPath owner (methods m hm).oneLine⟩,
    fun v hv => oneLine_memberPath owner (values v hv).oneLine⟩

/-- The paths of all concepts of a model that comes of a document keep to one line. -/
theorem oneLine_path_of_accepted {d : Document} {m : Model} (accepted : d.check.verdict = .ok m) :
    ∀ c ∈ m.concepts, OneLine c.path.toList := by
  have acceptable := exists_ok_iff_acceptable.mp ⟨m, accepted⟩
  obtain ⟨-, rfl⟩ := d.check_tells.verdict_eq_ok_iff.mp accepted
  have paths : ∀ path ∈ d.image.concepts.map (·.path), OneLine path.toList :=
    List.forall_mem_map.mpr acceptable.oneLine_path
  rw [← d.paths_mapAnnotations AnnotationEntry.collected] at paths
  exact fun c hc => paths c.path (List.mem_map_of_mem hc)

end Document

namespace Report

variable {m : Model}

/-- A problem names a directive and two kinds, nothing that an author wrote. -/
theorem oneLine_problem {row : Row} (hr : row ∈ (ofModel m).rows) {text : String}
    (ht : text ∈ row.problems) : OneLine text.toList := by
  obtain ⟨c, -, rfl⟩ := List.mem_map.mp hr
  obtain ⟨e, he, rfl⟩ := List.mem_map.mp ht
  obtain ⟨p, expected, v, listed, -, -, rfl⟩ := Directives.mem_breaches_iff.mp he
  have parameter : ∀ x ∈ Directives.expectations, OneLine x.1.toList := by decide
  have label : ∀ k : Kind, OneLine k.label.toList := fun k => by cases k <;> decide
  unfold LookupError.message
  simp only [String.toList_append, OneLine.append_iff]
  exact ⟨⟨⟨⟨⟨⟨⟨by decide, parameter _ listed⟩, by decide⟩, by decide⟩, by decide⟩, label _⟩,
    by decide⟩, label _⟩

theorem oneLine_notice (paths : ∀ c ∈ m.concepts, OneLine c.path.toList) {n : Notice}
    (hn : n ∈ (ofModel m).notices) : OneLine n.line.toList := by
  rcases List.mem_append.mp hn with warning | totals
  · obtain ⟨row, hr, hn⟩ := List.mem_flatMap.mp warning
    obtain ⟨text, ht, rfl⟩ := List.mem_map.mp hn
    have problem := oneLine_problem hr ht
    obtain ⟨c, hc, rfl⟩ := List.mem_map.mp hr
    have path : OneLine (Row.ofConcept c).path.toList := paths c hc
    exact Notice.oneLine_line (by simp [Notice.names, path, problem])
  · rw [List.mem_singleton.mp totals]
    exact Notice.oneLine_line (by simp [Notice.names])

end Report

/-- No text in a document breaks a line of what is told of it: neither the complaint that it is
refused with nor what is logged until then, and if it is accepted neither what is logged while the
report is made nor a problem in it. -/
theorem Document.diagnostics_keep_to_a_line (d : Document) :
    (∀ v, d.check.verdict = .error v → OneLine v.message.toList) ∧
      (∀ n ∈ d.check.notices, OneLine n.line.toList) ∧
      ∀ m, d.check.verdict = .ok m →
        (∀ n ∈ (Report.ofModel m).notices, OneLine n.line.toList) ∧
          ∀ row ∈ (Report.ofModel m).rows, ∀ text ∈ row.problems, OneLine text.toList := by
  have lines := d.onLines_remarks
  refine ⟨fun v => d.check_tells.oneLine_message lines, d.check_tells.oneLine_notices lines,
    fun m hm => ⟨fun n hn => ?_, fun row hr text ht => ?_⟩⟩
  · exact Report.oneLine_notice (oneLine_path_of_accepted hm) hn
  · exact Report.oneLine_problem hr ht

/-- A document with line breaks in a value of a parameter that is accepted and in one that is not,
behind an annotation that is repeated. -/
def Document.brokenLines : Document :=
  ⟨[⟨"A", .struct, [⟨"json", [("name", .string "a\nb")]⟩,
    ⟨"json", [("size", .array [.string "x\ny", .object [("\r", .null)]])]⟩], [], [], []⟩]⟩

theorem Document.diagnostics_keep_to_a_line_brokenLines :
    ∃ v, brokenLines.check.verdict = .error v ∧ OneLine v.message.toList ∧
      v.message =
        "parameter size of @json on A has unsupported value [\"x\\ny\",\x7b\"\\r\":null\x7d]" ∧
      brokenLines.check.notices.map Notice.line =
        ["WARN A carries annotation @json more than once; only the first is used"] ∧
      ∀ n ∈ brokenLines.check.notices, OneLine n.line.toList := by
  obtain ⟨message, notices, -⟩ := brokenLines.diagnostics_keep_to_a_line
  exact ⟨_, rfl, message _ rfl, by decide, by decide, notices⟩

end ModelDirectives
