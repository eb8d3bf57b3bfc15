import ModelDirectives.Proofs.AnnotationFaults
import ModelDirectives.Proofs.DocumentChecks
import ModelDirectives.Proofs.DocumentSpellings

namespace ModelDirectives

open Json (Numeral Piece Reader Spells SpellsNumeral Stops Takes Tree WrittenItems WrittenList
  WrittenRecord WrittenText means_pieces pieces spells_quoted)

/-- An object with the given members in their order, repeated or not. Each value is one that is read
where it stands. -/
inductive Json.WrittenPairs (depth : Nat) (written : List (String × Json)) : Tree → Prop
  | object {ms : List (List Piece × Tree)}
      (h : List.Forall₂ (Reader.TakesMember (Reader.value depth)) ms written) :
    WrittenPairs depth written (.object ms)

open Json (WrittenPairs)
open Remark (fault? fault?_inTurn inTurn)

namespace AnnotationEntry

def WrittenOut (depth : Nat) (e : AnnotationEntry) : Tree → Prop :=
  WrittenRecord (e.slotsOf (WrittenPairs depth))

theorem takes_writtenOut {depth : Nat} {e : AnnotationEntry} {t : Tree}
    (h : e.WrittenOut depth t) : Takes (layout.record (depth + 2)) t e.collected := by
  have parameters : ∀ t, WrittenPairs depth e.parameters t →
      Takes (Reader.mapping (depth + 1)) t (Json.collect e.parameters) := by
    intro t written
    obtain ⟨members⟩ := written
    exact Reader.takes_mapping members
  exact takes_slotsOf depth parameters rfl h

end AnnotationEntry

namespace Document

/-- A text that writes a document with the parameters of each annotation as they are listed. Of the
levels that may lie inside one another, those on the way to a parameter are used up. -/
def WrittenOut (d : Document) (s : String) : Prop :=
  ∃ t,
    WrittenRecord (d.slotsOf (AnnotationEntry.WrittenOut 121) (AnnotationEntry.WrittenOut 119)) t ∧
    Spells s.toList t.tokens

theorem read_of_writtenOut {d : Document} {s : String} (h : d.WrittenOut s) :
    read s = .ok (d.mapAnnotations AnnotationEntry.collected) := by
  obtain ⟨t, written, spells⟩ := h
  have own : ∀ e ∈ d.types, ∀ a ∈ e.annotations, ∀ t, a.WrittenOut 121 t →
      Takes (AnnotationEntry.layout.record 123) t a.collected :=
    fun _ _ _ _ _ => AnnotationEntry.takes_writtenOut
  have further : ∀ e ∈ d.types, ∀ a ∈ e.allAnnotations, ∀ t, a.WrittenOut 119 t →
      Takes (AnnotationEntry.layout.record 121) t a.collected :=
    fun _ _ _ _ _ => AnnotationEntry.takes_writtenOut
  exact Json.readAll_of_takes spells (takes_slotsOf 119 own further written)

end Document

namespace AnnotationEntry

/-- What is wrong with the parameter of a key, which has the value that is written last for it. -/
inductive Fault (e : AnnotationEntry) (owner key : String) : Violation → Prop
  | name (h : ¬IsIdentifier key) : Fault e owner key (.invalidName (.parameterOf e.name owner) key)
  | value {j : Json} (named : IsIdentifier key)
      (last : LastNamed Prod.fst key e.parameters (key, j)) (unsupported : ¬j.Supported) :
    Fault e owner key (.unsupportedValue key e.name owner j)

/-- What is wrong with the first key that something is wrong with. -/
def FirstFault (e : AnnotationEntry) (owner : String) (v : Violation) : Prop :=
  ∃ before key after, e.parameters.map Prod.fst = before ++ key :: after ∧
    (∀ k ∈ before, ∀ w, ¬e.Fault owner k w) ∧ e.Fault owner key v

/-- All keys are identifiers, and what is written last for each is a value of a parameter. -/
def Fit (e : AnnotationEntry) : Prop :=
  (∀ m ∈ e.parameters, IsIdentifier m.1) ∧
    ∀ k j, LastNamed Prod.fst k e.parameters (k, j) → j.Supported

/-- The annotation that comes of writing the parameters one after the other. What is not a value of
a parameter is written as none. -/
def rewritten (e : AnnotationEntry) : Annotation :=
  e.parameters.foldl (fun a m => a.set ⟨m.1, m.2.parameterValue⟩) <| Annotation.named e.name

variable {e : AnnotationEntry} {owner key : String} {v : Violation}

theorem collected_parameters (e : AnnotationEntry) :
    e.collected.parameters = Keyed.collect Prod.fst e.parameters :=
  Json.collect_eq e.parameters

theorem keys_collected (e : AnnotationEntry) :
    e.collected.parameters.map Prod.fst = (e.parameters.map Prod.fst).eraseDups := by
  rw [collected_parameters, Keyed.keys_collect]

/-- What is kept of the parameters is fit exactly when the last values written are. -/
theorem forall_collected_iff :
    (∀ m ∈ e.collected.parameters, IsIdentifier m.1 ∧ m.2.Supported) ↔ e.Fit := by
  have named : (∀ m ∈ e.collected.parameters, IsIdentifier m.1) ↔
      ∀ m ∈ e.parameters, IsIdentifier m.1 := by
    rw [← List.forall_mem_map (f := Prod.fst) (P := IsIdentifier), keys_collected]
    simp only [List.mem_eraseDups, List.forall_mem_map]
  have last : ∀ m, m ∈ e.collected.parameters ↔ LastNamed Prod.fst m.1 e.parameters m := by
    intro m
    rw [collected_parameters, Keyed.mem_collect_iff]
  rw [forall₂_and, named]
  refine and_congr_right fun _ => ⟨fun h k j hj => h (k, j) ((last _).mpr hj), ?_⟩
  exact fun h m hm => h m.1 m.2 ((last m).mp hm)

theorem collected_acceptable_iff : e.collected.Acceptable ↔ IsIdentifier e.name ∧ e.Fit :=
  and_congr_right fun _ => forall_collected_iff

theorem image_collected (e : AnnotationEntry) : e.collected.image = e.rewritten := by
  rw [← ofParameters_eq_image, rewritten, Annotation.ofParameters, List.foldl_map]

theorem find?_collected_iff {j : Json} : e.collected.parameters.find? (·.1 = key) = some (key, j) ↔
    LastNamed Prod.fst key e.parameters (key, j) := by
  rw [collected_parameters, Keyed.find?_collect_eq_some_iff]

theorem exists_find?_collected (listed : key ∈ e.parameters.map Prod.fst) :
    ∃ j, e.collected.parameters.find? (·.1 = key) = some (key, j) := by
  rw [← List.mem_eraseDups, ← keys_collected] at listed
  obtain ⟨m, hm, rfl⟩ := List.mem_map.mp listed
  exact ⟨m.2, find?_of_mem_of_nodup e.collected_keysDistinct hm⟩

/-- What is wrong with the member kept under a key is what is wrong with the last one written. -/
theorem fault_iff (listed : key ∈ e.parameters.map Prod.fst) :
    (e.collected.parameters.find? (·.1 = key)).bind (parameterFault e.name owner) = some v ↔
      e.Fault owner key v := by
  obtain ⟨j, found⟩ := exists_find?_collected listed
  rw [found, Option.bind_some, parameterFault]
  constructor
  · intro h
    split at h
    next named =>
      split at h
      next => cases h
      next unsupported =>
        cases h
        exact .value named (find?_collected_iff.mp found) unsupported
    next unnamed =>
      cases h
      exact .name unnamed
  · intro h
    cases h with
    | name unnamed => rw [if_neg unnamed]
    | value named last unsupported =>
      have same := find?_collected_iff.mpr last
      rw [found] at same
      cases same
      rw [if_pos named, if_neg unsupported]

/-- The first fault among the members kept is that of the first key with a fault. -/
theorem firstFault_iff :
    e.collected.parameters.findSome? (parameterFault e.name owner) = some v ↔
      e.FirstFault owner v := by
  have alongKeys : e.collected.parameters.findSome? (parameterFault e.name owner) =
      (e.parameters.map Prod.fst).findSome? fun k =>
        (e.collected.parameters.find? (·.1 = k)).bind (parameterFault e.name owner) := by
    rw [collected_parameters, Keyed.findSome?_collect]
  rw [alongKeys, List.findSome?_eq_some_iff]
  refine exists_congr fun before => exists_congr fun k => exists_congr fun after => ?_
  refine and_congr_right fun eq => ?_
  have listed : ∀ n ∈ before, n ∈ e.parameters.map Prod.fst := fun n hn => by simp [eq, hn]
  rw [and_comm, fault_iff (by simp [eq])]
  refine and_congr_left fun _ => forall₂_congr fun n hn => ?_
  rw [Option.eq_none_iff_forall_ne_some]
  exact forall_congr' fun w => not_congr (fault_iff (listed n hn))

theorem annotationFault_eq_some_iff (named : IsIdentifier e.name) :
    e.collected.annotationFault owner = some v ↔ e.FirstFault owner v := by
  rw [← firstFault_iff, annotationFault, if_pos (show IsIdentifier e.collected.name from named)]
  rfl

variable {es : List AnnotationEntry}

theorem fault?_collected (owner : String) (es : List AnnotationEntry) :
    fault? (inTurn (remarks owner) (es.map collected)) =
      es.findSome? fun e => e.collected.annotationFault owner := by
  rw [fault?_inTurn (fault?_remarks owner), List.findSome?_map]
  rfl

theorem checkAll_collected_eq_ok_iff (named : ∀ e ∈ es, IsIdentifier e.name) {owner : String}
    {as : List Annotation} : (checkAll owner [] (es.map collected)).verdict = .ok as ↔
      (∀ e ∈ es, e.Fit) ∧ as = es.map rewritten := by
  have built : ((es.map collected).map collected).map image = es.map rewritten := by
    rw [List.map_map, List.map_map]
    refine List.map_congr_left fun e _ => ?_
    show e.collected.collected.image = e.rewritten
    rw [collected_of_keysDistinct e.collected_keysDistinct, image_collected]
  rw [(checkAll_tells owner (es.map collected)).verdict_eq_ok_iff, built, fault?_collected,
    List.findSome?_eq_none_iff]
  refine and_congr_left fun _ => forall₂_congr fun e he => ?_
  rw [annotationFault_eq_none_iff, collected_acceptable_iff, and_iff_right (named e he)]

theorem checkAll_collected_eq_error_iff (named : ∀ e ∈ es, IsIdentifier e.name)
    {owner : String} : (checkAll owner [] (es.map collected)).verdict = .error v ↔
      ∃ before e after, es = before ++ e :: after ∧ (∀ f ∈ before, f.Fit) ∧
        e.FirstFault owner v := by
  rw [(checkAll_tells owner (es.map collected)).verdict_eq_error_iff, fault?_collected,
    List.findSome?_eq_some_iff]
  refine exists_congr fun before => exists_congr fun e => exists_congr fun after => ?_
  refine and_congr_right fun eq => ?_
  subst eq
  have here : IsIdentifier e.name := named e (by simp)
  rw [and_comm, annotationFault_eq_some_iff here]
  refine and_congr_left fun _ => forall₂_congr fun f hf => ?_
  have earlier : IsIdentifier f.name := named f (by simp [hf])
  rw [annotationFault_eq_none_iff, collected_acceptable_iff, and_iff_right earlier]

end AnnotationEntry

namespace Document

/-- A document is read with the parameters of an annotation under different keys, each at the
position at which it was written first and with the value that was written last. The annotations on
a concept are accepted when all keys are identifiers and the last values are supported, and come out
as if every parameter had been written into them in turn; they are refused for the first key that
is not as it should be, with a complaint that has the last value of that key in it. -/
theorem repeated_keys_overwrite :
    (∀ (d : Document) (s : String), d.WrittenOut s →
      read s = .ok (d.mapAnnotations AnnotationEntry.collected)) ∧
    ∀ (owner : String) (es : List AnnotationEntry), (∀ e ∈ es, IsIdentifier e.name) →
      let check := AnnotationEntry.checkAll owner [] (es.map AnnotationEntry.collected)
      ((∃ as, check.verdict = .ok as) ↔ ∀ e ∈ es, e.Fit) ∧
      (∀ as, check.verdict = .ok as → as = es.map AnnotationEntry.rewritten) ∧
      (∀ v, check.verdict = .error v ↔ ∃ before e after, es = before ++ e :: after ∧
        (∀ f ∈ before, f.Fit) ∧ e.FirstFault owner v) ∧
      ∀ text, (∃ v, check.verdict = .error v ∧ v.message = text) ↔
        ∃ before e after v, es = before ++ e :: after ∧ (∀ f ∈ before, f.Fit) ∧
          e.FirstFault owner v ∧ v.Reads text := by
  refine ⟨fun _ _ => read_of_writtenOut, fun owner es named => ⟨⟨?_, ?_⟩, ?_, fun v => ?_, ?_⟩⟩
  · intro h
    obtain ⟨as, accepted⟩ := h
    exact ((AnnotationEntry.checkAll_collected_eq_ok_iff named).mp accepted).1
  · intro fit
    exact ⟨_, (AnnotationEntry.checkAll_collected_eq_ok_iff named).mpr ⟨fit, rfl⟩⟩
  · intro as accepted
    exact ((AnnotationEntry.checkAll_collected_eq_ok_iff named).mp accepted).2
  · exact AnnotationEntry.checkAll_collected_eq_error_iff named
  · intro text
    simp only [AnnotationEntry.checkAll_collected_eq_error_iff named, Violation.reads_iff]
    constructor
    · intro h
      obtain ⟨v, ⟨before, e, after, eq, fit, first⟩, rfl⟩ := h
      exact ⟨before, e, after, v, eq, fit, first, rfl⟩
    · intro h
      obtain ⟨before, e, after, v, eq, fit, first, rfl⟩ := h
      exact ⟨v, ⟨before, e, after, eq, fit, first⟩, rfl⟩

/-- The name of the attribute is a number first and a string afterwards. -/
def renamed : AnnotationEntry :=
  ⟨"json", [("name", .number (.int 3)), ("required", .bool true), ("name", .string "id")]⟩

def renamedIn : Document :=
  ⟨[⟨"A", .classType, [renamed], [], [], []⟩]⟩

def renamedParameters : Tree :=
  .object [(pieces "name", .number ⟨false, ['3'], none, none⟩), (pieces "required", .bool true),
    (pieces "name", .string (pieces "id"))]

def renamedTree : Tree :=
  .array [.array [.array [.string (pieces "A"), .string (pieces "class"),
    .array [.array [.string (pieces "json"), renamedParameters]]]]]

def renamedText : String :=
  "[[[\"A\",\"class\",[[\"json\",\x7b\"name\":3,\"required\":true,\"name\":\"id\"\x7d]]]]]"

theorem renamed_writtenOut : renamedIn.WrittenOut renamedText := by
  refine ⟨renamedTree, ?_, ?_⟩
  · have parameters : WrittenPairs 121 renamed.parameters renamedParameters := by
      refine .object (.cons ⟨means_pieces "name", Reader.takes_number 121 rfl⟩ ?_)
      refine .cons ⟨means_pieces "required", Reader.takes_bool 121 true⟩ ?_
      exact .cons ⟨means_pieces "name", Reader.takes_string 121 (means_pieces "id")⟩ .nil
    have annotation : renamed.WrittenOut 121
        (.array [.string (pieces "json"), renamedParameters]) := by
      apply WrittenRecord.array
      apply WrittenItems.field (WrittenText.string (means_pieces "json"))
      exact .field parameters (.done (List.forall_mem_nil _))
    apply WrittenRecord.array
    refine .field (WrittenList.array (.cons (.array ?_) .nil)) (.done (List.forall_mem_nil _))
    apply WrittenItems.field (WrittenText.string (means_pieces "A"))
    apply WrittenItems.field (TypeKind.Written.name (means_pieces "class"))
    exact .field (WrittenList.array (.cons annotation .nil)) (.done (by simp))
  · have three : SpellsNumeral ['3'] ⟨false, ['3'], none, none⟩ := Numeral.spells_digits 3
    apply Spells.mark .openBracket
    apply Spells.mark .openBracket
    apply Spells.mark .openBracket
    apply spells_quoted "A"
    apply Spells.mark .comma
    apply spells_quoted "class"
    apply Spells.mark .comma
    apply Spells.mark .openBracket
    apply Spells.mark .openBracket
    apply spells_quoted "json"
    apply Spells.mark .comma
    apply Spells.mark .openBrace
    apply spells_quoted "name"
    apply Spells.mark .colon
    apply @Spells.numeral _ (',' :: _) _ _ three (Stops.cons (by decide) _)
    apply Spells.mark .comma
    apply spells_quoted "required"
    apply Spells.mark .colon
    apply @Spells.token _ (',' :: _) _ _ .true
    apply Spells.mark .comma
    apply spells_quoted "name"
    apply Spells.mark .colon
    apply spells_quoted "id"
    apply Spells.mark .closeBrace
    apply Spells.mark .closeBracket
    apply Spells.mark .closeBracket
    apply Spells.mark .closeBracket
    apply Spells.mark .closeBracket
    exact .mark .closeBracket .nil

/-- The name of the attribute is a string first and a number afterwards. -/
def numbered : AnnotationEntry :=
  ⟨"json", [("name", .string "id"), ("size", .array []), ("name", .number (.int 3))]⟩

theorem repeated_keys_overwrite_renamed :
    renamedIn.WrittenOut renamedText ∧
      read renamedText = .ok (renamedIn.mapAnnotations AnnotationEntry.collected) ∧
      (∀ e ∈ [renamed], IsIdentifier e.name) ∧
      (AnnotationEntry.checkAll "A" [] [renamed.collected]).verdict = .ok [renamed.rewritten] ∧
      renamed.Fit ∧ (∀ e ∈ [numbered], IsIdentifier e.name) ∧
      ∃ before e after v, [numbered] = before ++ e :: after ∧ (∀ f ∈ before, f.Fit) ∧
        e.FirstFault "A" v ∧ v.Reads "parameter name of @json on A has unsupported value 3" := by
  have named : ∀ e ∈ [renamed], IsIdentifier e.name := by decide
  have accepted : (AnnotationEntry.checkAll "A" [] [renamed.collected]).verdict =
      .ok [⟨"json", [⟨"name", some (.string "id")⟩, ⟨"required", some (.bool true)⟩]⟩] := rfl
  have numberedNamed : ∀ e ∈ [numbered], IsIdentifier e.name := by decide
  have refused : (AnnotationEntry.checkAll "A" [] [numbered.collected]).verdict =
      .error (.unsupportedValue "name" "json" "A" (.number (.int 3))) := rfl
  obtain ⟨reads, checks⟩ := repeated_keys_overwrite
  obtain ⟨fit, same, -⟩ := checks "A" [renamed] named
  obtain ⟨-, -, -, texts⟩ := checks "A" [numbered] numberedNamed
  refine ⟨renamed_writtenOut, reads _ _ renamed_writtenOut, named, ?_, ?_, numberedNamed, ?_⟩
  · exact accepted.trans (congrArg Except.ok (same _ accepted))
  · exact fit.mp ⟨_, accepted⟩ renamed List.mem_cons_self
  · exact (texts _).mp ⟨_, refused, by decide⟩

end Document

end ModelDirectives
