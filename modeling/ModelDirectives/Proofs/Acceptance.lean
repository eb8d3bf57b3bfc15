import Mathlib.Data.List.Nodup
import ModelDirectives.Proofs.AnnotationFaults
import ModelDirectives.Proofs.DocumentChecks

namespace ModelDirectives

open Remark

/-- Names that are distinct from one another and from those already taken. -/
def Fresh (taken names : List String) : Prop :=
  names.Nodup ∧ ∀ name ∈ names, name ∉ taken

theorem fresh_append {taken first second : List String} :
    Fresh taken (first ++ second) ↔ Fresh taken first ∧ Fresh (taken ++ first) second := by
  unfold Fresh
  rw [List.nodup_append]
  grind

theorem fresh_concat {taken names : List String} {name : String} :
    Fresh taken (names ++ [name]) ↔ Fresh taken names ∧ name ∉ taken ∧ name ∉ names := by
  rw [fresh_append]
  simp [Fresh]

/-- Annotations have no violations among them when each is acceptable by itself. -/
theorem fault?_annotations_eq_none_iff {owner : String} {es : List AnnotationEntry} :
    fault? (inTurn (AnnotationEntry.remarks owner) es) = none ↔ ∀ e ∈ es, e.Acceptable := by
  rw [fault?_inTurn (AnnotationEntry.fault?_remarks owner), List.findSome?_eq_none_iff]
  exact forall₂_congr fun e _ => AnnotationEntry.annotationFault_eq_none_iff

/-- There is nothing wrong with members when each is named by an identifier and is as it should be
apart from that, and their names are new. -/
theorem fault?_members_eq_none_iff {ε : Type} {subject : Subject} {owner : String}
    {nameOf : ε → String} {others : List String} {parts : ε → List Remark} {es : List ε} :
    fault? (inTurn (memberRemarks subject owner nameOf others parts) es) = none ↔
      (∀ e ∈ es, IsIdentifier (nameOf e) ∧ fault? (parts e) = none) ∧
        Fresh others (es.map nameOf) := by
  induction es using List.reverseRecOn with
  | nil => simp [inTurn, fault?, Fresh]
  | append_singleton es e ih =>
    rw [inTurn_concat, fault?_append, Option.or_eq_none_iff, ih, List.map_append,
      List.map_singleton, fresh_concat, List.forall_mem_append, List.forall_mem_singleton]
    unfold memberRemarks
    simp only [fault?_append, fault?_given_violation, Option.or_eq_none_iff, ite_eq_right_iff,
      reduceCtorEq, imp_false, not_not, not_or, List.mem_map]
    tauto

theorem AttributeEntry.fault?_remarks_eq_none_iff {owner : String} {e : AttributeEntry} :
    fault? (e.remarks owner) = none ↔
      (∃ c ∈ e.typeName.toList, ¬Text.isBlank c) ∧ ∀ a ∈ e.annotations, a.Acceptable := by
  unfold remarks
  rw [fault?_append, fault?_given_violation, Option.or_eq_none_iff,
    fault?_annotations_eq_none_iff]
  simp

theorem MemberEntry.fault?_remarks_eq_none_iff {owner : String} {e : MemberEntry} :
    fault? (e.remarks owner) = none ↔ ∀ a ∈ e.annotations, a.Acceptable :=
  fault?_annotations_eq_none_iff

namespace TypeEntry

/-- What is asked of a type, in the order in which it is remarked upon. -/
theorem acceptable_iff {t : TypeEntry} : t.Acceptable ↔
    (∀ e ∈ t.annotations, e.Acceptable) ∧
    ((∀ a ∈ t.attributes, IsIdentifier a.name ∧
        (∃ c ∈ a.typeName.toList, ¬Text.isBlank c) ∧ ∀ e ∈ a.annotations, e.Acceptable) ∧
      Fresh [] (t.attributes.map (·.name))) ∧
    ((∀ m ∈ t.methods, IsIdentifier m.name ∧ ∀ e ∈ m.annotations, e.Acceptable) ∧
      Fresh (t.attributes.map (·.name)) (t.methods.map (·.name))) ∧
    (t.values ≠ [] → t.kind = .enum) ∧
    (∀ v ∈ t.values, IsIdentifier v.name ∧ ∀ e ∈ v.annotations, e.Acceptable) ∧
    Fresh (t.attributes.map (·.name) ++ t.methods.map (·.name)) (t.values.map (·.name)) := by
  have names : t.memberNames.Nodup ↔ Fresh [] (t.attributes.map (·.name)) ∧
      Fresh (t.attributes.map (·.name)) (t.methods.map (·.name)) ∧
      Fresh (t.attributes.map (·.name) ++ t.methods.map (·.name)) (t.values.map (·.name)) := by
    have whole : t.memberNames.Nodup ↔ Fresh [] t.memberNames := by simp [Fresh]
    rw [whole, memberNames, fresh_append, List.nil_append, fresh_append]
  constructor
  · intro h
    obtain ⟨members, distinct, typed, onlyEnum, ofAll⟩ := h
    simp only [memberNames, List.forall_mem_append, List.forall_mem_map] at members
    obtain ⟨fresh₁, fresh₂, fresh₃⟩ := names.mp distinct
    obtain ⟨onType, onAttributes, onMethods, onValues⟩ := forall_mem_allAnnotations.mp ofAll
    exact ⟨onType, ⟨fun a ha => ⟨members.1 a ha, typed a ha, onAttributes a ha⟩, fresh₁⟩,
      ⟨fun m hm => ⟨members.2.1 m hm, onMethods m hm⟩, fresh₂⟩, onlyEnum,
      fun v hv => ⟨members.2.2 v hv, onValues v hv⟩, fresh₃⟩
  · intro h
    obtain ⟨onType, ⟨ofAttributes, fresh₁⟩, ⟨ofMethods, fresh₂⟩, onlyEnum, ofValues, fresh₃⟩ := h
    refine ⟨?_, names.mpr ⟨fresh₁, fresh₂, fresh₃⟩, fun a ha => (ofAttributes a ha).2.1, onlyEnum,
      ?_⟩
    · simp only [memberNames, List.forall_mem_append, List.forall_mem_map]
      exact ⟨fun a ha => (ofAttributes a ha).1, fun m hm => (ofMethods m hm).1,
        fun v hv => (ofValues v hv).1⟩
    · exact forall_mem_allAnnotations.mpr ⟨onType, fun a ha => (ofAttributes a ha).2.2,
        fun m hm => (ofMethods m hm).2, fun v hv => (ofValues v hv).2⟩

/-- A type commits no violation when it is acceptable and its name is an identifier that is new. -/
theorem fault?_remarks_eq_none_iff {before : List TypeEntry} {t : TypeEntry} :
    fault? (t.remarks before) = none ↔
      IsIdentifier t.name ∧ (∀ u ∈ before, u.name ≠ t.name) ∧ t.Acceptable := by
  have onlyEnum : (¬(t.values ≠ [] ∧ t.kind ≠ .enum)) ↔ (t.values ≠ [] → t.kind = .enum) := by
    simp
  unfold remarks
  simp only [fault?_append, fault?_given_violation, Option.or_eq_none_iff, ite_eq_right_iff,
    reduceCtorEq, imp_false, not_not, not_exists, not_and, fault?_annotations_eq_none_iff,
    fault?_members_eq_none_iff, AttributeEntry.fault?_remarks_eq_none_iff,
    MemberEntry.fault?_remarks_eq_none_iff, acceptable_iff, and_assoc]

end TypeEntry

namespace Document

theorem fault?_types_eq_none_iff {ts : List TypeEntry} :
    fault? (inTurn TypeEntry.remarks ts) = none ↔
      (∀ t ∈ ts, IsIdentifier t.name ∧ t.Acceptable) ∧ (ts.map (·.name)).Nodup := by
  induction ts using List.reverseRecOn with
  | nil => simp [inTurn, fault?]
  | append_singleton ts t ih =>
    rw [inTurn_concat, fault?_append, Option.or_eq_none_iff, ih,
      TypeEntry.fault?_remarks_eq_none_iff, List.map_append, List.map_singleton,
      List.forall_mem_append, List.forall_mem_singleton, List.nodup_append]
    simp
    tauto

/-- Nothing is wrong with a document exactly when it is acceptable. -/
theorem fault?_remarks_eq_none_iff {d : Document} : fault? d.remarks = none ↔ d.Acceptable := by
  unfold remarks
  rw [fault?_append, fault?_append, Option.or_eq_none_iff, Option.or_eq_none_iff,
    fault?_types_eq_none_iff, fault?_given_violation]
  constructor
  · intro h
    obtain ⟨⟨⟨all, distinct⟩, nonempty⟩, -⟩ := h
    refine ⟨by simpa using nonempty, fun t ht => (all t ht).1, distinct, fun t ht => (all t ht).2⟩
  · intro h
    obtain ⟨nonempty, names, distinct, types⟩ := h
    exact ⟨⟨⟨fun t ht => ⟨names t ht, types t ht⟩, distinct⟩, if_neg nonempty⟩, rfl⟩

theorem exists_ok_iff_acceptable {d : Document} :
    (∃ m, d.check.verdict = .ok m) ↔ d.Acceptable :=
  d.check_tells.exists_ok_iff.trans fault?_remarks_eq_none_iff

theorem mapAnnotations_collected {d : Document} (distinct : d.KeysDistinct) :
    d.mapAnnotations AnnotationEntry.collected = d :=
  mapAnnotations_of_forall fun t ht a ha =>
    AnnotationEntry.collected_of_keysDistinct (distinct t ht a ha)

/-- Where no keys are repeated, the model that comes of a document is its image. -/
theorem verdict_eq_ok_iff {d : Document} {m : Model} (distinct : d.KeysDistinct) :
    d.check.verdict = .ok m ↔ d.Acceptable ∧ m = d.image := by
  rw [d.check_tells.verdict_eq_ok_iff, fault?_remarks_eq_none_iff,
    mapAnnotations_collected distinct]

end Document

/-- A document is accepted exactly when it is acceptable, and the model that comes of it is its
image. -/
theorem Document.accepted_iff_acceptable {d : Document} (distinct : d.KeysDistinct) :
    ((∃ m, d.check.verdict = .ok m) ↔ d.Acceptable) ∧
      ∀ m, d.check.verdict = .ok m → m = d.image := by
  refine ⟨exists_ok_iff_acceptable, fun m accepted => ?_⟩
  exact ((verdict_eq_ok_iff distinct).mp accepted).2

/-- A document with an annotation that is repeated and a parameter without a value. -/
def Document.sample : Document :=
  ⟨[⟨"Color", .enum, [⟨"json", [("name", .string "c"), ("default", .null)]⟩, ⟨"json", []⟩],
    [⟨"id", "String", []⟩], [⟨"get", []⟩], [⟨"red", [⟨"go", [("name", .bool true)]⟩]⟩]⟩]⟩

theorem Document.sample_acceptable :
    sample.KeysDistinct ∧ (∃ m, sample.check.verdict = .ok m) ∧ sample.Acceptable := by
  have distinct : sample.KeysDistinct := by decide
  have accepted : ∃ m, sample.check.verdict = .ok m := ⟨sample.image, rfl⟩
  exact ⟨distinct, accepted, (accepted_iff_acceptable distinct).1.mp accepted⟩

end ModelDirectives
