import ModelDirectives.Loading
import ModelDirectives.Proofs.EntrySpellings
import ModelDirectives.Proofs.Printing

namespace ModelDirectives

namespace Json

/-- The value of a parameter. -/
inductive WrittenValue : Json → Tree → Prop
  | null : WrittenValue .null .null
  | bool (flag : Bool) : WrittenValue (.bool flag) (.bool flag)
  | string {s : String} {ps : List Piece} (means : Means ps s.toList) :
    WrittenValue (.string s) (.string ps)

/-- Parameters in their order, which matters. -/
inductive WrittenParameters (parameters : List (String × Json)) : Tree → Prop
  | object {ms : List (List Piece × Tree)}
      (h : List.Forall₂ (fun m p => Means m.1 p.1.toList ∧ WrittenValue p.2 m.2) ms parameters) :
    WrittenParameters parameters (.object ms)

end Json

open Json (HexDigit Means Reader Slot Spells SpellsPieces Takes Tree WrittenList WrittenMembers
  WrittenParameters WrittenRecord WrittenText WrittenValue hexDigit_digitChar means_pieces pieces
  spells_quoted)

/-- An annotation that is written with its parameters in their order. -/
def AnnotationEntry.Written (e : AnnotationEntry) : Tree → Prop :=
  WrittenRecord (e.slotsOf WrittenParameters)

def AttributeEntry.Written (e : AttributeEntry) : Tree → Prop :=
  WrittenRecord (e.slotsOf AnnotationEntry.Written)

def MemberEntry.Written (e : MemberEntry) : Tree → Prop :=
  WrittenRecord (e.slotsOf AnnotationEntry.Written)

def TypeEntry.Written (e : TypeEntry) : Tree → Prop :=
  WrittenRecord (e.slotsOf AnnotationEntry.Written AnnotationEntry.Written)

namespace Document

def Written (d : Document) : Tree → Prop :=
  WrittenRecord (d.slotsOf AnnotationEntry.Written AnnotationEntry.Written)

/-- A text that writes a document, with any blanks between the tokens of one of its trees. -/
def WrittenAs (d : Document) (s : String) : Prop :=
  ∃ t, d.Written t ∧ Spells s.toList t.tokens

end Document

namespace Json.Reader

theorem takes_written_value (depth : Nat) {j : Json} {t : Tree} (h : WrittenValue j t) :
    Takes (value depth) t j := by
  cases h with
  | null => exact takes_null depth
  | bool flag => exact takes_bool depth flag
  | string means => exact takes_string depth means

theorem takes_written_parameters (depth : Nat) {parameters : List (String × Json)}
    (distinct : (parameters.map Prod.fst).Nodup) {t : Tree}
    (h : WrittenParameters parameters t) : Takes (mapping (depth + 1)) t parameters := by
  obtain ⟨members⟩ := h
  have takes := takes_mapping (members.imp fun m p h => ⟨h.1, takes_written_value depth h.2⟩)
  rwa [collect_of_nodup distinct] at takes

end Json.Reader

open Json.Reader (takes_written_parameters)

theorem AnnotationEntry.takes_written (depth : Nat) {e : AnnotationEntry}
    (distinct : e.KeysDistinct) {t : Tree} (h : e.Written t) :
    Takes (layout.record (depth + 2)) t e := by
  have parameters : ∀ t, WrittenParameters e.parameters t →
      Takes (Reader.mapping (depth + 1)) t (id e.parameters) :=
    fun _ => takes_written_parameters depth distinct
  exact takes_slotsOf depth parameters rfl h

namespace Document

/-- The levels of nesting that a document needs are counted from its parameters outwards. -/
theorem takes_written (depth : Nat) {d : Document} (distinct : d.KeysDistinct) {t : Tree}
    (h : d.Written t) : Takes (layout.record (depth + 8)) t d := by
  have own : ∀ e ∈ d.types, ∀ a ∈ e.annotations, ∀ t, a.Written t →
      Takes (AnnotationEntry.layout.record (depth + 4)) t a :=
    fun e he a ha _ => AnnotationEntry.takes_written (depth + 2)
      (distinct e he a (List.mem_append_left _ ha))
  have further : ∀ e ∈ d.types, ∀ a ∈ e.allAnnotations, ∀ t, a.Written t →
      Takes (AnnotationEntry.layout.record (depth + 2)) t a :=
    fun e he a ha _ => AnnotationEntry.takes_written depth (distinct e he a ha)
  have whole : Takes (layout.record (depth + 8)) t (d.mapAnnotations id) :=
    takes_slotsOf depth own further h
  have same : d.mapAnnotations id = d := mapAnnotations_of_forall fun _ _ _ _ => rfl
  rwa [same] at whole

theorem read_of_writtenAs {d : Document} (distinct : d.KeysDistinct) {s : String}
    (h : d.WrittenAs s) : read s = .ok d := by
  obtain ⟨t, written, spells⟩ := h
  exact Json.readAll_of_takes spells (takes_written 119 distinct written)

end Document

namespace Loading

theorem ofText_congr {s s' : String} (h : Document.read s = Document.read s') :
    ofText s = ofText s' := by
  unfold ofText
  rw [h]

/-- A file that holds the bytes of a text is loaded as this text. -/
theorem ofFile_toUTF8 (s : String) : ofFile (.ok s.toUTF8) = ofText s := by
  have decoded : String.fromUTF8? s.toUTF8 = some s := by
    unfold String.fromUTF8?
    rw [dif_pos (show s.toUTF8.IsValidUTF8 from s.isValidUTF8)]
    rfl
  simp only [ofFile, decoded]

end Loading

namespace Document

/-- A text that writes a document is read as this document and writes no other one, and every file
that writes it in some other way is loaded with the same result. -/
theorem read_of_any_spelling {d : Document} (distinct : d.KeysDistinct) {s : String}
    (h : d.WrittenAs s) :
    read s = .ok d ∧ (∀ d', d'.KeysDistinct → d'.WrittenAs s → d' = d) ∧
      ∀ s', d.WrittenAs s' → Loading.ofFile (.ok s'.toUTF8) = Loading.ofFile (.ok s.toUTF8) := by
  have here := read_of_writtenAs distinct h
  refine ⟨here, ?_, ?_⟩
  · intro d' distinct' h'
    have other := read_of_writtenAs distinct' h'
    rw [here] at other
    exact (Except.ok.inj other).symm
  · intro s' h'
    rw [Loading.ofFile_toUTF8, Loading.ofFile_toUTF8]
    exact Loading.ofText_congr ((read_of_writtenAs distinct h').trans here.symm)

def spelled : Document :=
  ⟨[⟨"A", .enum, [], [], [], []⟩]⟩

/-- The document is a list. The type is an object with its fields the other way round, behind one
that is not known and holds half of a pair. -/
def spelledTree : Tree :=
  .array [.array [.object [(pieces "x", .string [.unit 0xd800]),
    (pieces "kind", .object [(pieces "enum", .null)]), (pieces "name", .string [.unit 0x41])]]]

def spelledText : String :=
  "[[\x7b\"x\":\"\\ud800\",\"kind\":\x7b\"enum\":null\x7d, \"name\":\"\\u0041\"\x7d]]"

theorem spelled_written : spelled.Written spelledTree := by
  have type : TypeEntry.Written ⟨"A", .enum, [], [], [], []⟩
      (.object [(pieces "x", .string [.unit 0xd800]),
        (pieces "kind", .object [(pieces "enum", .null)]),
        (pieces "name", .string [.unit 0x41])]) := by
    apply WrittenRecord.object
    apply WrittenMembers.unknown (means_pieces "x") (by decide)
    apply @WrittenMembers.field _ [⟨"name", WrittenText "A", False⟩] _ ⟨"kind", _, _⟩
    · exact means_pieces "kind"
    · exact TypeKind.Written.object (means_pieces "enum")
    · have name : WrittenText "A" (.string [.unit 0x41]) := .string (@Means.unit 'A' _ _ .nil)
      apply WrittenMembers.next (means_pieces "name") name
      exact .done (by simp)
  exact .array (.field (WrittenList.array (.cons type .nil)) (.done (by simp)))

theorem spelled_spells : Spells spelledText.toList spelledTree.tokens := by
  have hex : ∀ n < 16, HexDigit (Nat.digitChar n) n := fun _ => hexDigit_digitChar
  have half : SpellsPieces ['\\', 'u', 'd', '8', '0', '0'] [.unit 0xd800] :=
    .unit (hex 13 (by decide)) (hex 8 (by decide)) (hex 0 (by decide)) (hex 0 (by decide)) .nil
  have letter : SpellsPieces ['\\', 'u', '0', '0', '4', '1'] [.unit 0x41] :=
    .unit (hex 0 (by decide)) (hex 0 (by decide)) (hex 4 (by decide)) (hex 1 (by decide)) .nil
  apply Spells.mark .openBracket
  apply Spells.mark .openBracket
  apply Spells.mark .openBrace
  apply spells_quoted "x"
  apply Spells.mark .colon
  apply @Spells.token _ (',' :: _) _ _ (.string half)
  apply Spells.mark .comma
  apply spells_quoted "kind"
  apply Spells.mark .colon
  apply Spells.mark .openBrace
  apply spells_quoted "enum"
  apply Spells.mark .colon
  apply @Spells.token _ ('\x7d' :: _) _ _ .null
  apply Spells.mark .closeBrace
  apply Spells.mark .comma
  apply Spells.blank (.inl rfl)
  apply spells_quoted "name"
  apply Spells.mark .colon
  apply @Spells.token _ ('\x7d' :: _) _ _ (.string letter)
  apply Spells.mark .closeBrace
  apply Spells.mark .closeBracket
  exact .mark .closeBracket .nil

theorem read_of_any_spelling_spelled :
    spelled.KeysDistinct ∧ spelled.WrittenAs spelledText ∧ read spelledText = .ok spelled := by
  have distinct : spelled.KeysDistinct := by decide
  have written : spelled.WrittenAs spelledText := ⟨_, spelled_written, spelled_spells⟩
  exact ⟨distinct, written, (read_of_any_spelling distinct written).1⟩

end Document

end ModelDirectives
