import ModelDirectives.Proofs.Remarks

namespace ModelDirectives

open Remark (given fault? fault?_append fault?_flatMap fault?_given_notice fault?_given_violation
  fault?_inTurn)

namespace AnnotationEntry

def parameterFault (name owner : String) (m : String × Json) : Option Violation :=
  if IsIdentifier m.1 then
    if m.2.Supported then none else some (.unsupportedValue m.1 name owner m.2)
  else some (.invalidName (.parameterOf name owner) m.1)

theorem parameterFault_eq_none_iff {name owner : String} {m : String × Json} :
    parameterFault name owner m = none ↔ IsIdentifier m.1 ∧ m.2.Supported := by
  unfold parameterFault
  split_ifs with named supported
  · simp [named, supported]
  · simp [supported]
  · simp [named]

/-- The first violation of an annotation does not depend on the ones before it. -/
def annotationFault (owner : String) (e : AnnotationEntry) : Option Violation :=
  if IsIdentifier e.name then e.parameters.findSome? (parameterFault e.name owner)
  else some (.invalidName (.annotationOn owner) e.name)

/-- An annotation without a fault is one that is acceptable, whatever concept it stands on. -/
theorem annotationFault_eq_none_iff {owner : String} {e : AnnotationEntry} :
    e.annotationFault owner = none ↔ e.Acceptable := by
  unfold annotationFault Acceptable
  split
  next named =>
    rw [List.findSome?_eq_none_iff, and_iff_right named]
    exact forall₂_congr fun m _ => parameterFault_eq_none_iff
  next unnamed => simp [unnamed]

/-- Annotations before this one are a reason for a notice and never for a violation. -/
theorem fault?_remarks (owner : String) (before : List AnnotationEntry) (e : AnnotationEntry) :
    fault? (e.remarks owner before) = e.annotationFault owner := by
  have parameter : ∀ m : String × Json,
      fault? (given (¬IsIdentifier m.1)
          (.violation (.invalidName (.parameterOf e.name owner) m.1)) ++
        given (¬m.2.Supported) (.violation (.unsupportedValue m.1 e.name owner m.2))) =
      parameterFault e.name owner m := by
    intro m
    rw [fault?_append, fault?_given_violation, fault?_given_violation, parameterFault]
    by_cases named : IsIdentifier m.1 <;> by_cases supported : m.2.Supported <;>
      simp [named, supported]
  unfold remarks annotationFault
  rw [fault?_append, fault?_append, fault?_given_violation, fault?_given_notice, fault?_flatMap]
  simp only [parameter]
  by_cases named : IsIdentifier e.name <;> simp [named]

end AnnotationEntry

end ModelDirectives
