import ModelDirectives.Document.Reader
import ModelDirectives.Proofs.Acceptable
import ModelDirectives.Proofs.RecordReading

namespace ModelDirectives

namespace Json

inductive WrittenText (s : String) : Tree → Prop
  | string {ps : List Piece} (means : Means ps s.toList) : WrittenText s (.string ps)

inductive WrittenList {α : Type} (writes : α → Tree → Prop) (xs : List α) : Tree → Prop
  | array {ts : List Tree} (h : List.Forall₂ (fun t x => writes x t) ts xs) :
    WrittenList writes xs (.array ts)

end Json

open Json (Layout Means Piece Reader Slot Takes Tree WrittenList WrittenRecord WrittenText)

/-- A kind is written as its name, or as an object with nothing but a null under its name. -/
inductive TypeKind.Written (k : TypeKind) : Tree → Prop
  | name {ps : List Piece} (means : Means ps k.label.toList) : Written k (.string ps)
  | object {ps : List Piece} (means : Means ps k.label.toList) : Written k (.object [(ps, .null)])

namespace Json.Reader

theorem takes_written_text (depth : Nat) {s : String} {t : Tree} (h : WrittenText s t) :
    Takes (text depth) t s := by
  obtain ⟨means⟩ := h
  exact takes_text depth means

theorem takes_written_list {α β : Type} {item : Nat → Reader β} {writes : α → Tree → Prop}
    {read : α → β} {depth : Nat} {xs : List α}
    (h : ∀ x ∈ xs, ∀ t, writes x t → Takes (item depth) t (read x)) {t : Tree}
    (written : WrittenList writes xs t) : Takes (sequence item (depth + 1)) t (xs.map read) := by
  obtain ⟨items⟩ := written
  apply takes_sequence
  induction items with
  | nil => exact .nil
  | cons here _ ih =>
    obtain ⟨first, later⟩ := List.forall_mem_cons.mp h
    exact .cons (first _ here) (ih later)

/-- Both ways of writing a kind are read as this kind. -/
theorem takes_written_kind (depth : Nat) {k : TypeKind} {t : Tree} (h : k.Written t) :
    Takes (variant (TypeKind.all.map fun k => (k.label, k)) (depth + 1)) t k := by
  have known : (TypeKind.all.map fun k => (k.label, k)).find? (·.1 = k.label) =
      some (k.label, k) := by
    cases k <;> rfl
  cases h with
  | name means => exact takes_variant _ known means
  | object means => exact takes_variant_object _ known means

end Json.Reader

open Json.Entry (sound_mandatory sound_optional)
open Json.Reader (takes_written_text takes_written_list takes_written_kind)

namespace AnnotationEntry

variable {writes : List (String × Json) → Tree → Prop}
  {read : List (String × Json) → List (String × Json)}

/-- An annotation, given how its parameters are written. -/
def slotsOf (writes : List (String × Json) → Tree → Prop) (e : AnnotationEntry) : List Slot :=
  [⟨"name", WrittenText e.name, False⟩, ⟨"parameters", writes e.parameters, e.parameters = []⟩]

def stores (e : AnnotationEntry) : List (AnnotationEntry → AnnotationEntry) :=
  [fun r => { r with name := e.name }, fun r => { r with parameters := e.parameters }]

theorem layout_stores : layout.Stores stores where
  length _ := rfl
  distinct := show ["name", "parameters"].Nodup by decide
  commute := by simp [stores]
  whole _ := rfl

/-- Whatever its parameters are read as, an annotation is read with these and with its own name. -/
theorem takes_slotsOf (depth : Nat) {e : AnnotationEntry}
    (h : ∀ t, writes e.parameters t → Takes (Reader.mapping (depth + 1)) t (read e.parameters))
    (empty : read [] = []) {t : Tree} (written : WrittenRecord (e.slotsOf writes) t) :
    Takes (layout.record (depth + 2)) t (e.mapParameters read) := by
  have sound : ∀ u ∈ layout.entries (e.slotsOf writes) (e.mapParameters read).stores,
      u.Sound (depth + 1) := by
    refine List.forall_mem_cons.mpr ⟨sound_mandatory fun _ => takes_written_text _, ?_⟩
    exact List.forall_mem_singleton.mpr (sound_optional h)
  refine layout_stores.takes_record rfl sound ?_ written
  simp +contextual [Layout.entries, layout, slotsOf, stores, mapParameters, List.zipWith3, empty]

end AnnotationEntry

section Annotations

-- How annotations are written: the annotations of an entry itself, and those of its members.
variable (writes inMembers : AnnotationEntry → Tree → Prop)

def AttributeEntry.slotsOf (e : AttributeEntry) : List Slot :=
  [⟨"name", WrittenText e.name, False⟩, ⟨"type", WrittenText e.typeName, False⟩,
    ⟨"annotations", WrittenList writes e.annotations, e.annotations = []⟩]

def MemberEntry.slotsOf (e : MemberEntry) : List Slot :=
  [⟨"name", WrittenText e.name, False⟩,
    ⟨"annotations", WrittenList writes e.annotations, e.annotations = []⟩]

def TypeEntry.slotsOf (e : TypeEntry) : List Slot :=
  [⟨"name", WrittenText e.name, False⟩, ⟨"kind", e.kind.Written, e.kind = .classType⟩,
    ⟨"annotations", WrittenList writes e.annotations, e.annotations = []⟩,
    ⟨"attributes", WrittenList (fun a => WrittenRecord (a.slotsOf inMembers)) e.attributes,
      e.attributes = []⟩,
    ⟨"methods", WrittenList (fun m => WrittenRecord (m.slotsOf inMembers)) e.methods,
      e.methods = []⟩,
    ⟨"values", WrittenList (fun v => WrittenRecord (v.slotsOf inMembers)) e.values, e.values = []⟩]

def Document.slotsOf (d : Document) : List Slot :=
  [⟨"types", WrittenList (fun t => WrittenRecord (t.slotsOf writes inMembers)) d.types,
    d.types = []⟩]

end Annotations

variable {writes inMembers : AnnotationEntry → Tree → Prop}
  {read : AnnotationEntry → AnnotationEntry}

namespace AttributeEntry

def stores (e : AttributeEntry) : List (AttributeEntry → AttributeEntry) :=
  [fun r => { r with name := e.name }, fun r => { r with typeName := e.typeName },
    fun r => { r with annotations := e.annotations }]

theorem layout_stores : layout.Stores stores where
  length _ := rfl
  distinct := show ["name", "type", "annotations"].Nodup by decide
  commute := by simp [stores]
  whole _ := rfl

theorem takes_slotsOf (depth : Nat) {e : AttributeEntry}
    (h : ∀ a ∈ e.annotations, ∀ t, writes a t →
      Takes (AnnotationEntry.layout.record (depth + 2)) t (read a))
    {t : Tree} (written : WrittenRecord (e.slotsOf writes) t) :
    Takes (layout.record (depth + 4)) t (e.mapAnnotations read) := by
  have sound : ∀ u ∈ layout.entries (e.slotsOf writes) (e.mapAnnotations read).stores,
      u.Sound (depth + 3) := by
    refine List.forall_mem_cons.mpr ⟨sound_mandatory fun _ => takes_written_text _, ?_⟩
    refine List.forall_mem_cons.mpr ⟨sound_mandatory fun _ => takes_written_text _, ?_⟩
    exact List.forall_mem_singleton.mpr (sound_optional fun _ => takes_written_list h)
  refine layout_stores.takes_record rfl sound ?_ written
  simp [Layout.entries, layout, slotsOf, stores, mapAnnotations, List.zipWith3]

end AttributeEntry

namespace MemberEntry

def stores (e : MemberEntry) : List (MemberEntry → MemberEntry) :=
  [fun r => { r with name := e.name }, fun r => { r with annotations := e.annotations }]

theorem layout_stores : layout.Stores stores where
  length _ := rfl
  distinct := show ["name", "annotations"].Nodup by decide
  commute := by simp [stores]
  whole _ := rfl

theorem takes_slotsOf (depth : Nat) {e : MemberEntry}
    (h : ∀ a ∈ e.annotations, ∀ t, writes a t →
      Takes (AnnotationEntry.layout.record (depth + 2)) t (read a))
    {t : Tree} (written : WrittenRecord (e.slotsOf writes) t) :
    Takes (layout.record (depth + 4)) t (e.mapAnnotations read) := by
  have sound : ∀ u ∈ layout.entries (e.slotsOf writes) (e.mapAnnotations read).stores,
      u.Sound (depth + 3) := by
    refine List.forall_mem_cons.mpr ⟨sound_mandatory fun _ => takes_written_text _, ?_⟩
    exact List.forall_mem_singleton.mpr (sound_optional fun _ => takes_written_list h)
  refine layout_stores.takes_record rfl sound ?_ written
  simp [Layout.entries, layout, slotsOf, stores, mapAnnotations, List.zipWith3]

end MemberEntry

namespace TypeEntry

def stores (e : TypeEntry) : List (TypeEntry → TypeEntry) :=
  [fun r => { r with name := e.name }, fun r => { r with kind := e.kind },
    fun r => { r with annotations := e.annotations },
    fun r => { r with attributes := e.attributes }, fun r => { r with methods := e.methods },
    fun r => { r with values := e.values }]

theorem layout_stores : layout.Stores stores where
  length _ := rfl
  distinct :=
    show ["name", "kind", "annotations", "attributes", "methods", "values"].Nodup by decide
  commute := by simp [stores]
  whole _ := rfl

/-- Annotations on the type itself stand two levels higher than those on its members. -/
theorem takes_slotsOf (depth : Nat) {e : TypeEntry}
    (own : ∀ a ∈ e.annotations, ∀ t, writes a t →
      Takes (AnnotationEntry.layout.record (depth + 4)) t (read a))
    (further : ∀ a ∈ e.allAnnotations, ∀ t, inMembers a t →
      Takes (AnnotationEntry.layout.record (depth + 2)) t (read a))
    {t : Tree} (written : WrittenRecord (e.slotsOf writes inMembers) t) :
    Takes (layout.record (depth + 6)) t (e.mapAnnotations read) := by
  obtain ⟨-, inAttributes, inMethods, inValues⟩ := forall_mem_allAnnotations.mp further
  have sound : ∀ u ∈ layout.entries (e.slotsOf writes inMembers) (e.mapAnnotations read).stores,
      u.Sound (depth + 5) := by
    refine List.forall_mem_cons.mpr ⟨sound_mandatory fun _ => takes_written_text _, ?_⟩
    refine List.forall_mem_cons.mpr ⟨sound_optional fun _ => takes_written_kind _, ?_⟩
    refine List.forall_mem_cons.mpr ⟨sound_optional fun _ => takes_written_list own, ?_⟩
    refine List.forall_mem_cons.mpr ⟨sound_optional fun _ => takes_written_list fun a ha _ =>
      AttributeEntry.takes_slotsOf depth (inAttributes a ha), ?_⟩
    refine List.forall_mem_cons.mpr ⟨sound_optional fun _ => takes_written_list fun m hm _ =>
      MemberEntry.takes_slotsOf depth (inMethods m hm), ?_⟩
    exact List.forall_mem_singleton.mpr <| sound_optional fun _ =>
      takes_written_list fun v hv _ => MemberEntry.takes_slotsOf depth (inValues v hv)
  refine layout_stores.takes_record rfl sound ?_ written
  simp [Layout.entries, layout, slotsOf, stores, mapAnnotations, List.zipWith3]

end TypeEntry

namespace Document

def stores (d : Document) : List (Document → Document) :=
  [fun r => { r with types := d.types }]

theorem layout_stores : layout.Stores stores where
  length _ := rfl
  distinct := List.nodup_singleton _
  commute := by simp [stores]
  whole _ := rfl

theorem takes_slotsOf (depth : Nat) {d : Document}
    (own : ∀ e ∈ d.types, ∀ a ∈ e.annotations, ∀ t, writes a t →
      Takes (AnnotationEntry.layout.record (depth + 4)) t (read a))
    (further : ∀ e ∈ d.types, ∀ a ∈ e.allAnnotations, ∀ t, inMembers a t →
      Takes (AnnotationEntry.layout.record (depth + 2)) t (read a))
    {t : Tree} (written : WrittenRecord (d.slotsOf writes inMembers) t) :
    Takes (layout.record (depth + 8)) t (d.mapAnnotations read) := by
  have sound : ∀ u ∈ layout.entries (d.slotsOf writes inMembers) (d.mapAnnotations read).stores,
      u.Sound (depth + 7) :=
    List.forall_mem_singleton.mpr <| sound_optional fun _ => takes_written_list fun e he _ =>
      TypeEntry.takes_slotsOf depth (own e he) (further e he)
  refine layout_stores.takes_record rfl sound ?_ written
  simp [Layout.entries, layout, slotsOf, stores, mapAnnotations, List.zipWith3]

end Document

end ModelDirectives
