import Mathlib.Data.List.Induction
import ModelDirectives.Document.Check
import ModelDirectives.Proofs.Acceptable

namespace ModelDirectives

/-- How the thing whose name is no identifier is spoken of. -/
inductive Subject.Reads : Subject → String → Prop
  | type : Reads .type "type"
  | annotationOn (owner : String) : Reads (.annotationOn owner) ("annotation on " ++ owner)
  | parameterOf (name owner : String) :
    Reads (.parameterOf name owner) ("parameter of @" ++ name ++ " on " ++ owner)
  | attributeName : Reads .attribute "attribute"
  | method : Reads .method "method"
  | enumValue : Reads .enumValue "enum value"

/-- The complaint about a violation, which quotes a name that is no identifier and has an
unsupported value in compact form. -/
inductive Violation.Reads : Violation → String → Prop
  | invalidName {subject : Subject} {what : String} (h : subject.Reads what) (name : String) :
    Reads (.invalidName subject name) ("invalid " ++ what ++ " name " ++ Text.quoted name)
  | typeRepeated (name : String) :
    Reads (.typeRepeated name) ("duplicate type name in model: " ++ name)
  | memberRepeated (name owner : String) :
    Reads (.memberRepeated name owner) ("duplicate member " ++ name ++ " in type " ++ owner)
  | attributeUntyped (name owner : String) :
    Reads (.attributeUntyped name owner) ("attribute " ++ owner ++ "." ++ name ++ " has no type")
  | unsupportedValue (parameter name owner : String) (value : Json) :
    Reads (.unsupportedValue parameter name owner value)
      ("parameter " ++ parameter ++ " of @" ++ name ++ " on " ++ owner ++
        " has unsupported value " ++ value.compactText)
  | valuesOutsideEnum (owner : String) :
    Reads (.valuesOutsideEnum owner)
      ("type " ++ owner ++ " declares enum values but is not an enum")
  | noTypes : Reads .noTypes "model contained no types"

theorem Subject.reads_text : (subject : Subject) → subject.Reads subject.text
  | .type => .type
  | .annotationOn owner => .annotationOn owner
  | .parameterOf name owner => .parameterOf name owner
  | .attribute => .attributeName
  | .method => .method
  | .enumValue => .enumValue

theorem Violation.reads_message : (v : Violation) → v.Reads v.message
  | .invalidName subject name => .invalidName subject.reads_text name
  | .typeRepeated name => .typeRepeated name
  | .memberRepeated name owner => .memberRepeated name owner
  | .attributeUntyped name owner => .attributeUntyped name owner
  | .unsupportedValue parameter name owner value => .unsupportedValue parameter name owner value
  | .valuesOutsideEnum owner => .valuesOutsideEnum owner
  | .noTypes => .noTypes

/-- A violation reads in one way only, which is its message. -/
theorem Violation.reads_iff {v : Violation} {text : String} : v.Reads text ↔ text = v.message := by
  constructor
  · intro h
    cases h with
    | invalidName spoken name => cases spoken <;> rfl
    | _ => rfl
  · rintro rfl
    exact v.reads_message

inductive Remark where
  | notice (n : Notice)
  | violation (v : Violation)
  deriving Repr

instance : DecidablePred IsIdentifier := fun _ =>
  decidable_of_iff _ Identifier.isValid_iff

instance : DecidablePred Json.Supported := fun j =>
  match j with
  | .string _ | .bool _ | .null => .isTrue trivial
  | .number _ | .array _ | .object _ => .isFalse id

namespace Remark

/-- A remark that there is occasion for, or none. -/
def given (occasion : Prop) [Decidable occasion] (r : Remark) : List Remark :=
  if occasion then [r] else []

/-- The remarks on the items of a list one after the other, each item seen with those before it. -/
def inTurn {α : Type} (remarks : List α → α → List Remark) (xs : List α) : List Remark :=
  (xs.mapIdx fun i x => remarks (xs.take i) x).flatten

theorem mem_given {occasion : Prop} [Decidable occasion] {r s : Remark} :
    r ∈ given occasion s ↔ occasion ∧ r = s := by
  unfold given
  split <;> simp [*]

theorem inTurn_cons {α : Type} (remarks : List α → α → List Remark) (x : α) (xs : List α) :
    inTurn remarks (x :: xs) =
      remarks [] x ++ inTurn (fun before => remarks (x :: before)) xs := by
  simp [inTurn, List.mapIdx_cons]

theorem inTurn_append {α : Type} (remarks : List α → α → List Remark) (xs ys : List α) :
    inTurn remarks (xs ++ ys) =
      inTurn remarks xs ++ inTurn (fun before => remarks (xs ++ before)) ys := by
  induction xs generalizing remarks with
  | nil => rfl
  | cons x xs ih =>
    rw [List.cons_append, inTurn_cons, ih, inTurn_cons, List.append_assoc]
    rfl

theorem inTurn_concat {α : Type} (remarks : List α → α → List Remark) (xs : List α) (x : α) :
    inTurn remarks (xs ++ [x]) = inTurn remarks xs ++ remarks xs x := by
  rw [inTurn_append, inTurn_cons]
  simp [inTurn]

/-- A remark is made on some item, seen with the items before it. -/
theorem mem_inTurn {α : Type} {remarks : List α → α → List Remark} {xs : List α} {r : Remark} :
    r ∈ inTurn remarks xs ↔
      ∃ before x after, xs = before ++ x :: after ∧ r ∈ remarks before x := by
  unfold inTurn
  simp only [List.mem_flatten, List.mem_mapIdx]
  constructor
  · intro h
    obtain ⟨_, ⟨i, hi, rfl⟩, hr⟩ := h
    refine ⟨xs.take i, xs[i], xs.drop (i + 1), ?_, hr⟩
    rw [List.getElem_cons_drop, List.take_append_drop]
  · intro h
    obtain ⟨before, x, after, rfl, hr⟩ := h
    exact ⟨_, ⟨before.length, by simp, rfl⟩, by simpa using hr⟩

def violation? : Remark → Option Violation
  | .notice _ => none
  | .violation v => some v

/-- The first violation among several remarks. -/
def fault? (rs : List Remark) : Option Violation :=
  rs.findSome? violation?

theorem fault?_eq_none_iff {rs : List Remark} : fault? rs = none ↔ ∀ v, .violation v ∉ rs := by
  rw [fault?, List.findSome?_eq_none_iff]
  constructor
  · intro h v hv
    cases h _ hv
  · intro h r hr
    cases r with
    | notice n => rfl
    | violation v => exact absurd hr (h v)

theorem fault?_append (rs ss : List Remark) : fault? (rs ++ ss) = (fault? rs).or (fault? ss) :=
  List.findSome?_append

theorem fault?_notices (ns : List Notice) : fault? (ns.map .notice) = none := by
  refine List.findSome?_eq_none_iff.mpr (List.forall_mem_map.mpr fun n _ => rfl)

variable {occasion : Prop} [Decidable occasion]

theorem fault?_given_violation (v : Violation) :
    fault? (given occasion (.violation v)) = if occasion then some v else none := by
  unfold given
  split <;> rfl

theorem fault?_given_notice (n : Notice) : fault? (given occasion (.notice n)) = none := by
  unfold given
  split <;> rfl

variable {α : Type}

theorem fault?_flatMap (remarks : α → List Remark) (xs : List α) :
    fault? (xs.flatMap remarks) = xs.findSome? fun x => fault? (remarks x) := by
  induction xs with
  | nil => rfl
  | cons x xs ih =>
    rw [List.flatMap_cons, fault?_append, ih, List.findSome?_cons]
    cases fault? (remarks x) <;> rfl

/-- Violations that an item commits by itself, whatever items stand before it. -/
theorem fault?_inTurn {remarks : List α → α → List Remark} {own : α → Option Violation}
    (alone : ∀ before x, fault? (remarks before x) = own x) (xs : List α) :
    fault? (inTurn remarks xs) = xs.findSome? own := by
  induction xs using List.reverseRecOn with
  | nil => rfl
  | append_singleton xs x ih =>
    rw [inTurn_concat, fault?_append, alone, ih, List.findSome?_append, List.findSome?_singleton]

end Remark

open Remark

/-- Remarks on an annotation of `owner`: on its name, on an earlier one of the same name, and on
each of its parameters. -/
def AnnotationEntry.remarks (owner : String) (before : List AnnotationEntry)
    (e : AnnotationEntry) : List Remark :=
  given (¬IsIdentifier e.name) (.violation (.invalidName (.annotationOn owner) e.name)) ++
    given (∃ f ∈ before, f.name = e.name) (.notice (.annotationRepeated owner e.name)) ++
    e.parameters.flatMap fun (name, value) =>
      given (¬IsIdentifier name) (.violation (.invalidName (.parameterOf e.name owner) name)) ++
        given (¬value.Supported) (.violation (.unsupportedValue name e.name owner value))

/-- Remarks on an attribute of `owner` apart from its name: on its type and on its annotations. -/
def AttributeEntry.remarks (owner : String) (e : AttributeEntry) : List Remark :=
  given (e.typeName.toList.all Text.isBlank) (.violation (.attributeUntyped e.name owner)) ++
    inTurn (AnnotationEntry.remarks (owner ++ "." ++ e.name)) e.annotations

/-- Remarks on a method or a value of `owner` apart from its name. -/
def MemberEntry.remarks (owner : String) (e : MemberEntry) : List Remark :=
  inTurn (AnnotationEntry.remarks (owner ++ "." ++ e.name)) e.annotations

/-- Remarks on a member of `owner`: on its name, on a member of another sort or an earlier one of
its own sort with that name, and on its other parts. -/
def memberRemarks {ε : Type} (subject : Subject) (owner : String) (nameOf : ε → String)
    (others : List String) (parts : ε → List Remark) (before : List ε) (e : ε) : List Remark :=
  given (¬IsIdentifier (nameOf e)) (.violation (.invalidName subject (nameOf e))) ++
    given (nameOf e ∈ others ∨ ∃ f ∈ before, nameOf f = nameOf e)
      (.violation (.memberRepeated (nameOf e) owner)) ++
    parts e

/-- Remarks on a type: on its name, on an earlier type of that name, on its annotations, and on its
members, where having values without being an enum comes before the values. -/
def TypeEntry.remarks (before : List TypeEntry) (t : TypeEntry) : List Remark :=
  let attributeNames := t.attributes.map (·.name)
  let methodNames := t.methods.map (·.name)
  given (¬IsIdentifier t.name) (.violation (.invalidName .type t.name)) ++
    given (∃ u ∈ before, u.name = t.name) (.violation (.typeRepeated t.name)) ++
    inTurn (AnnotationEntry.remarks t.name) t.annotations ++
    inTurn (memberRemarks .attribute t.name (·.name) [] (AttributeEntry.remarks t.name))
      t.attributes ++
    inTurn (memberRemarks .method t.name (·.name) attributeNames (MemberEntry.remarks t.name))
      t.methods ++
    given (t.values ≠ [] ∧ t.kind ≠ .enum) (.violation (.valuesOutsideEnum t.name)) ++
    inTurn (memberRemarks .enumValue t.name (·.name) (attributeNames ++ methodNames)
      (MemberEntry.remarks t.name)) t.values

/-- Remarks on a document: on each type, on there being none, and on how many there are. -/
def Document.remarks (d : Document) : List Remark :=
  inTurn TypeEntry.remarks d.types ++ given (d.types = []) (.violation .noTypes) ++
    [.notice (.loaded d.types.length)]

end ModelDirectives
