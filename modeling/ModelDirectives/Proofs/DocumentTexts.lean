import ModelDirectives.Document.Writing
import ModelDirectives.Proofs.DocumentSpellings
import ModelDirectives.Proofs.Printing

namespace ModelDirectives

namespace Json

theorem Supported.printable {j : Json} (h : j.Supported) (depth : Nat) : j.Printable depth := by
  cases j with
  | null | bool | string => trivial
  | number | array | object => cases h

theorem Supported.written {j : Json} (h : j.Supported) : WrittenValue j j.tree := by
  cases j with
  | null => exact .null
  | bool flag => exact .bool flag
  | string s => exact .string (means_pieces s)
  | number | array | object => cases h

theorem written_text (s : String) : WrittenText s (Json.string s).tree :=
  .string (means_pieces s)

theorem written_parameters {parameters : List (String × Json)}
    (h : ∀ m ∈ parameters, m.2.Supported) :
    WrittenParameters parameters (object parameters).tree := by
  constructor
  induction parameters with
  | nil => exact .nil
  | cons m ms ih =>
    obtain ⟨here, later⟩ := List.forall_mem_cons.mp h
    exact .cons ⟨means_pieces m.1, here.written⟩ (ih later)

theorem written_list {α : Type} {writes : α → Tree → Prop} {toJson : α → Json} {xs : List α}
    (h : ∀ x ∈ xs, writes x (toJson x).tree) :
    WrittenList writes xs (array (xs.map toJson)).tree := by
  constructor
  induction xs with
  | nil => exact .nil
  | cons x xs ih =>
    obtain ⟨here, later⟩ := List.forall_mem_cons.mp h
    exact .cons here (ih later)

/-- The first slot that is open may be written first, under its printed label. -/
theorem WrittenMembers.printed {labels : List String} {s : Slot} {slots : List Slot} {t : Tree}
    {ms : List (List Piece × Tree)} (writes : s.writes t)
    (rest : WrittenMembers labels slots ms) :
    WrittenMembers labels (s :: slots) ((pieces s.label, t) :: ms) :=
  .next (means_pieces s.label) writes rest

end Json

open Json (WrittenList WrittenMembers WrittenRecord means_pieces printable_list written_list
  written_parameters written_text)

/-- The parameters are such that they can be written, and no two of them have one name. -/
def AnnotationEntry.Plain (e : AnnotationEntry) : Prop :=
  e.KeysDistinct ∧ ∀ m ∈ e.parameters, m.2.Supported

def Document.Plain (d : Document) : Prop :=
  ∀ t ∈ d.types, ∀ e ∈ t.allAnnotations, e.Plain

namespace AnnotationEntry

theorem written_tree {e : AnnotationEntry} (plain : e.Plain) : e.Written e.toJson.tree := by
  apply WrittenRecord.object
  apply WrittenMembers.printed (written_text e.name)
  apply WrittenMembers.printed (written_parameters plain.2)
  exact .none

theorem printable {e : AnnotationEntry} (plain : e.Plain) (depth : Nat) :
    e.toJson.Printable (depth + 2) := by
  have distinct : ["name", "parameters"].Nodup := by decide
  have parameters : (Json.object e.parameters).Printable (depth + 1) :=
    ⟨Nat.succ_pos depth, plain.1,
      Json.membersPrintable_iff.mpr fun m hm => (plain.2 m hm).printable depth⟩
  exact ⟨by omega, distinct, trivial, parameters, trivial⟩

theorem written_trees {es : List AnnotationEntry} (plain : ∀ e ∈ es, e.Plain) :
    WrittenList Written es (Json.array (es.map toJson)).tree :=
  written_list fun e he => written_tree (plain e he)

theorem printable_all {es : List AnnotationEntry} (plain : ∀ e ∈ es, e.Plain) (depth : Nat) :
    (Json.array (es.map toJson)).Printable (depth + 3) :=
  printable_list fun e he => printable (plain e he) depth

end AnnotationEntry

namespace AttributeEntry

theorem written_tree {e : AttributeEntry} (plain : ∀ a ∈ e.annotations, a.Plain) :
    e.Written e.toJson.tree := by
  apply WrittenRecord.object
  apply WrittenMembers.printed (written_text e.name)
  apply WrittenMembers.printed (written_text e.typeName)
  apply WrittenMembers.printed (AnnotationEntry.written_trees plain)
  exact .none

theorem printable {e : AttributeEntry} (plain : ∀ a ∈ e.annotations, a.Plain) (depth : Nat) :
    e.toJson.Printable (depth + 4) := by
  have distinct : ["name", "type", "annotations"].Nodup := by decide
  have annotations := AnnotationEntry.printable_all plain depth
  exact ⟨by omega, distinct, trivial, trivial, annotations, trivial⟩

end AttributeEntry

namespace MemberEntry

theorem written_tree {e : MemberEntry} (plain : ∀ a ∈ e.annotations, a.Plain) :
    e.Written e.toJson.tree := by
  apply WrittenRecord.object
  apply WrittenMembers.printed (written_text e.name)
  apply WrittenMembers.printed (AnnotationEntry.written_trees plain)
  exact .none

theorem printable {e : MemberEntry} (plain : ∀ a ∈ e.annotations, a.Plain) (depth : Nat) :
    e.toJson.Printable (depth + 4) := by
  have distinct : ["name", "annotations"].Nodup := by decide
  have annotations := AnnotationEntry.printable_all plain depth
  exact ⟨by omega, distinct, trivial, annotations, trivial⟩

end MemberEntry

namespace TypeEntry

theorem written_tree {e : TypeEntry} (plain : ∀ a ∈ e.allAnnotations, a.Plain) :
    e.Written e.toJson.tree := by
  obtain ⟨own, inAttributes, inMethods, inValues⟩ := forall_mem_allAnnotations.mp plain
  have attributes := written_list fun a ha => AttributeEntry.written_tree (inAttributes a ha)
  have methods := written_list fun m hm => MemberEntry.written_tree (inMethods m hm)
  have values := written_list fun v hv => MemberEntry.written_tree (inValues v hv)
  apply WrittenRecord.object
  apply WrittenMembers.printed (written_text e.name)
  apply WrittenMembers.printed (TypeKind.Written.name (means_pieces e.kind.label))
  apply WrittenMembers.printed (AnnotationEntry.written_trees own)
  apply WrittenMembers.printed attributes
  apply WrittenMembers.printed methods
  apply WrittenMembers.printed values
  exact .none

theorem printable {e : TypeEntry} (plain : ∀ a ∈ e.allAnnotations, a.Plain) (depth : Nat) :
    e.toJson.Printable (depth + 6) := by
  obtain ⟨own, inAttributes, inMethods, inValues⟩ := forall_mem_allAnnotations.mp plain
  have distinct :
    ["name", "kind", "annotations", "attributes", "methods", "values"].Nodup := by decide
  have annotations := AnnotationEntry.printable_all own (depth + 2)
  have attributes := printable_list fun a ha => AttributeEntry.printable (inAttributes a ha) depth
  have methods := printable_list fun m hm => MemberEntry.printable (inMethods m hm) depth
  have values := printable_list fun v hv => MemberEntry.printable (inValues v hv) depth
  exact ⟨by omega, distinct, trivial, trivial, annotations, attributes, methods, values, trivial⟩

end TypeEntry

namespace Document

theorem Plain.keysDistinct {d : Document} (plain : d.Plain) : d.KeysDistinct :=
  fun t ht e he => (plain t ht e he).1

theorem written_tree {d : Document} (plain : d.Plain) : d.Written d.toJson.tree := by
  have types := written_list fun t ht => TypeEntry.written_tree (plain t ht)
  apply WrittenRecord.object
  apply WrittenMembers.printed types
  exact .none

theorem printable {d : Document} (plain : d.Plain) : d.toJson.Printable Json.maxDepth := by
  have types := printable_list fun t ht => TypeEntry.printable (plain t ht) 119
  exact ⟨by decide, List.nodup_singleton _, types, trivial⟩

/-- The text of a document is one of those that write it. -/
theorem writtenAs_text {d : Document} (plain : d.Plain) : d.WrittenAs d.text :=
  ⟨_, written_tree plain, Json.spells_compactText (printable plain)⟩

/-- The text of a document is read back as the document. -/
theorem read_text {d : Document} (plain : d.Plain) : read d.text = .ok d :=
  read_of_writtenAs plain.keysDistinct (writtenAs_text plain)

end Document

end ModelDirectives
