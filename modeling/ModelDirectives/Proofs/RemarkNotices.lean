import ModelDirectives.Proofs.Remarks
import ModelDirectives.Proofs.Repetitions

namespace ModelDirectives

namespace Remark

def notice? : Remark → Option Notice
  | .notice n => some n
  | .violation _ => none

/-- The notices among several remarks. -/
def told (rs : List Remark) : List Notice :=
  rs.filterMap notice?

theorem mem_told_iff {rs : List Remark} {n : Notice} : n ∈ told rs ↔ .notice n ∈ rs := by
  unfold told
  rw [List.mem_filterMap]
  constructor
  · intro h
    obtain ⟨r, hr, eq⟩ := h
    cases r with
    | notice m =>
      cases eq
      exact hr
    | violation v => cases eq
  · intro h
    exact ⟨_, h, rfl⟩

theorem told_append (rs ss : List Remark) : told (rs ++ ss) = told rs ++ told ss :=
  List.filterMap_append

theorem told_flatMap {α : Type} (remarks : α → List Remark) (xs : List α) :
    told (xs.flatMap remarks) = xs.flatMap fun x => told (remarks x) :=
  List.filterMap_flatMap

theorem told_given_violation {occasion : Prop} [Decidable occasion] (v : Violation) :
    told (given occasion (.violation v)) = [] := by
  unfold given
  split <;> rfl

theorem told_given_notice {occasion : Prop} [Decidable occasion] (n : Notice) :
    told (given occasion (.notice n)) = if occasion then [n] else [] := by
  unfold given
  split <;> rfl

variable {α : Type}

/-- Notices that an item gives by itself, whatever items stand before it. -/
theorem told_inTurn {remarks : List α → α → List Remark} {own : α → List Notice}
    (alone : ∀ before x, told (remarks before x) = own x) (xs : List α) :
    told (inTurn remarks xs) = xs.flatMap own := by
  induction xs using List.reverseRecOn with
  | nil => rfl
  | append_singleton xs x ih =>
    rw [inTurn_concat, told_append, alone, ih, List.flatMap_append, List.flatMap_singleton]

end Remark

open Remark

/-- The warnings of the repeated annotations of a concept. -/
def Concept.warnings (c : Concept) : List Notice :=
  (repeated c.annotations).map fun e => .annotationRepeated c.path e.1.name

theorem Concept.eq_of_mem_warnings {cs : List Concept} {n : Notice}
    (h : n ∈ cs.flatMap warnings) : ∃ owner name, n = .annotationRepeated owner name := by
  obtain ⟨c, -, hn⟩ := List.mem_flatMap.mp h
  obtain ⟨e, -, rfl⟩ := List.mem_map.mp hn
  exact ⟨c.path, e.1.name, rfl⟩

/-- The remarks on an annotation hold a notice if it is repeated, and no other one. -/
theorem AnnotationEntry.told_remarks (owner : String) (before : List AnnotationEntry)
    (e : AnnotationEntry) : told (e.remarks owner before) =
      if ∃ f ∈ before, f.name = e.name then [.annotationRepeated owner e.name] else [] := by
  unfold remarks
  simp [told_append, told_flatMap, told_given_violation, told_given_notice]

/-- The notices on the annotations of a concept are the warnings of those that are repeated. -/
theorem told_annotations (path : String) (kind : ConceptKind) (es : List AnnotationEntry) :
    told (inTurn (AnnotationEntry.remarks path) es) =
      Concept.warnings ⟨path, kind, es.map AnnotationEntry.image⟩ := by
  induction es using List.reverseRecOn with
  | nil => rfl
  | append_singleton es e ih =>
    have again : (∃ a ∈ es.map AnnotationEntry.image, a.name = e.image.name) ↔
        ∃ f ∈ es, f.name = e.name := by
      simp [AnnotationEntry.image]
    rw [inTurn_concat, told_append, ih, AnnotationEntry.told_remarks]
    unfold Concept.warnings
    rw [List.map_append, List.map_singleton, repeated_concat, List.map_append]
    simp only [again]
    split <;> rfl

theorem told_members {ε : Type} {subject : Subject} {owner : String} {nameOf : ε → String}
    {others : List String} {parts : ε → List Remark} {concept : ε → Concept} (es : List ε)
    (item : ∀ e, told (parts e) = (concept e).warnings) :
    told (inTurn (memberRemarks subject owner nameOf others parts) es) =
      (es.map concept).flatMap Concept.warnings := by
  rw [List.flatMap_map]
  apply told_inTurn
  intro before e
  rw [memberRemarks, told_append, told_append, told_given_violation, told_given_violation, item]
  rfl

theorem TypeEntry.told_remarks (before : List TypeEntry) (t : TypeEntry) :
    told (t.remarks before) = t.image.concepts.flatMap Concept.warnings := by
  have ofAttribute : ∀ a : AttributeEntry, told (a.remarks t.name) =
      Concept.warnings ⟨memberPath t.name a.name, .attribute, a.image.annotations⟩ := by
    intro a
    rw [AttributeEntry.remarks, told_append, told_given_violation,
      told_annotations _ .attribute]
    rfl
  have ofMethod : ∀ x : MemberEntry, told (x.remarks t.name) =
      Concept.warnings ⟨memberPath t.name x.name, .method, x.methodImage.annotations⟩ :=
    fun x => told_annotations _ .method x.annotations
  have ofValue : ∀ v : MemberEntry, told (v.remarks t.name) =
      Concept.warnings ⟨memberPath t.name v.name, .value, v.valueImage.annotations⟩ :=
    fun v => told_annotations _ .value v.annotations
  unfold remarks
  simp only [told_append, told_given_violation, told_annotations _ .type,
    told_members t.attributes ofAttribute, told_members t.methods ofMethod,
    told_members t.values ofValue, List.nil_append, List.append_nil]
  simp [TypeDef.concepts, image, Function.comp_def, AttributeEntry.image, MemberEntry.methodImage,
    MemberEntry.valueImage]

/-- The notices on a document are the warnings of its concepts, and at the end how many types it
has. -/
theorem Document.told_remarks (d : Document) :
    told d.remarks = d.image.concepts.flatMap Concept.warnings ++ [.loaded d.types.length] := by
  unfold remarks
  rw [told_append, told_append, told_given_violation, told_inTurn TypeEntry.told_remarks,
    Model.concepts, image, List.flatMap_map, List.flatMap_assoc, List.append_nil]
  rfl

end ModelDirectives
