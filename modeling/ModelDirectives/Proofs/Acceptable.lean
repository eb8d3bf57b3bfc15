import ModelDirectives.Document
import ModelDirectives.Identifier
import ModelDirectives.Text.Blank

namespace ModelDirectives

/-- A name of ASCII letters, digits and underscores that does not start with a digit. -/
def IsIdentifier (name : String) : Prop :=
  name ≠ "" ∧
    (∀ c ∈ name.toList, ('A' ≤ c ∧ c ≤ 'Z') ∨ ('a' ≤ c ∧ c ≤ 'z') ∨ ('0' ≤ c ∧ c ≤ '9') ∨ c = '_') ∧
    ∀ c ∈ name.toList.head?, ¬('0' ≤ c ∧ c ≤ '9')

namespace Json

/-- The values that a parameter may be given. -/
def Supported : Json → Prop
  | .string _ | .bool _ | .null => True
  | .number _ | .array _ | .object _ => False

/-- The value of a parameter; null stands for none. -/
def parameterValue : Json → Option Value
  | .string text => some (.string text)
  | .bool flag => some (.bool flag)
  | _ => none

end Json

namespace AnnotationEntry

def Acceptable (e : AnnotationEntry) : Prop :=
  IsIdentifier e.name ∧ ∀ m ∈ e.parameters, IsIdentifier m.1 ∧ m.2.Supported

def KeysDistinct (e : AnnotationEntry) : Prop :=
  (e.parameters.map Prod.fst).Nodup

instance : DecidablePred KeysDistinct := fun e =>
  inferInstanceAs (Decidable (e.parameters.map Prod.fst).Nodup)

def image (e : AnnotationEntry) : Annotation :=
  ⟨e.name, e.parameters.map fun m => ⟨m.1, m.2.parameterValue⟩⟩

def mapParameters (read : List (String × Json) → List (String × Json)) (e : AnnotationEntry) :
    AnnotationEntry :=
  { e with parameters := read e.parameters }

/-- An annotation with the parameters that are left when each is written over an earlier one of its
name. -/
def collected (e : AnnotationEntry) : AnnotationEntry :=
  e.mapParameters Json.collect

end AnnotationEntry

def AttributeEntry.image (e : AttributeEntry) : Attribute :=
  ⟨e.name, e.typeName, e.annotations.map AnnotationEntry.image⟩

def MemberEntry.methodImage (e : MemberEntry) : Method :=
  ⟨e.name, e.annotations.map AnnotationEntry.image⟩

def MemberEntry.valueImage (e : MemberEntry) : EnumValue :=
  ⟨e.name, e.annotations.map AnnotationEntry.image⟩

namespace TypeEntry

/-- The names that the members of a type share. -/
def memberNames (t : TypeEntry) : List String :=
  t.attributes.map (·.name) ++ (t.methods.map (·.name) ++ t.values.map (·.name))

/-- The annotations on a type and on all of its members. -/
def allAnnotations (t : TypeEntry) : List AnnotationEntry :=
  t.annotations ++ (t.attributes.flatMap (·.annotations) ++
    (t.methods.flatMap (·.annotations) ++ t.values.flatMap (·.annotations)))

/-- What holds of all annotations holds of those on the type and of those on each sort of member. -/
theorem forall_mem_allAnnotations {t : TypeEntry} {p : AnnotationEntry → Prop} :
    (∀ e ∈ t.allAnnotations, p e) ↔ (∀ e ∈ t.annotations, p e) ∧
      (∀ a ∈ t.attributes, ∀ e ∈ a.annotations, p e) ∧
      (∀ m ∈ t.methods, ∀ e ∈ m.annotations, p e) ∧ ∀ v ∈ t.values, ∀ e ∈ v.annotations, p e := by
  simp only [allAnnotations, List.forall_mem_append, List.forall_mem_flatMap]

/-- What is asked of a type apart from its own name. -/
structure Acceptable (t : TypeEntry) : Prop where
  members : ∀ name ∈ t.memberNames, IsIdentifier name
  distinct : t.memberNames.Nodup
  typed : ∀ a ∈ t.attributes, ∃ c ∈ a.typeName.toList, ¬Text.isBlank c
  enum : t.values ≠ [] → t.kind = .enum
  annotations : ∀ e ∈ t.allAnnotations, e.Acceptable

def image (t : TypeEntry) : TypeDef where
  name := t.name
  kind := t.kind
  annotations := t.annotations.map AnnotationEntry.image
  attributes := t.attributes.map AttributeEntry.image
  methods := t.methods.map MemberEntry.methodImage
  values := t.values.map MemberEntry.valueImage

end TypeEntry

namespace Document

structure Acceptable (d : Document) : Prop where
  nonempty : d.types ≠ []
  names : ∀ t ∈ d.types, IsIdentifier t.name
  distinct : (d.types.map (·.name)).Nodup
  types : ∀ t ∈ d.types, t.Acceptable

/-- No annotation gives two parameters of one name. -/
def KeysDistinct (d : Document) : Prop :=
  ∀ t ∈ d.types, ∀ e ∈ t.allAnnotations, e.KeysDistinct

instance : DecidablePred KeysDistinct := fun d =>
  inferInstanceAs (Decidable (∀ t ∈ d.types, ∀ e ∈ t.allAnnotations, e.KeysDistinct))

/-- The model with the same types, members, annotations and parameters in the same order. -/
def image (d : Document) : Model :=
  ⟨d.types.map TypeEntry.image⟩

end Document

section MapAnnotations

variable (read : AnnotationEntry → AnnotationEntry)

def AttributeEntry.mapAnnotations (e : AttributeEntry) : AttributeEntry :=
  { e with annotations := e.annotations.map read }

def MemberEntry.mapAnnotations (e : MemberEntry) : MemberEntry :=
  { e with annotations := e.annotations.map read }

def TypeEntry.mapAnnotations (e : TypeEntry) : TypeEntry :=
  { e with
    annotations := e.annotations.map read
    attributes := e.attributes.map (AttributeEntry.mapAnnotations read)
    methods := e.methods.map (MemberEntry.mapAnnotations read)
    values := e.values.map (MemberEntry.mapAnnotations read) }

def Document.mapAnnotations (d : Document) : Document :=
  ⟨d.types.map (TypeEntry.mapAnnotations read)⟩

variable {read}

theorem AttributeEntry.mapAnnotations_of_forall {e : AttributeEntry}
    (h : ∀ a ∈ e.annotations, read a = a) : e.mapAnnotations read = e := by
  rw [mapAnnotations, List.map_congr_left h, List.map_id']

theorem MemberEntry.mapAnnotations_of_forall {e : MemberEntry}
    (h : ∀ a ∈ e.annotations, read a = a) : e.mapAnnotations read = e := by
  rw [mapAnnotations, List.map_congr_left h, List.map_id']

theorem TypeEntry.mapAnnotations_of_forall {e : TypeEntry}
    (h : ∀ a ∈ e.allAnnotations, read a = a) : e.mapAnnotations read = e := by
  obtain ⟨own, inAttributes, inMethods, inValues⟩ := forall_mem_allAnnotations.mp h
  have attributes : ∀ a ∈ e.attributes, a.mapAnnotations read = a := fun a ha =>
    AttributeEntry.mapAnnotations_of_forall (inAttributes a ha)
  have methods : ∀ m ∈ e.methods, m.mapAnnotations read = m := fun m hm =>
    MemberEntry.mapAnnotations_of_forall (inMethods m hm)
  have values : ∀ v ∈ e.values, v.mapAnnotations read = v := fun v hv =>
    MemberEntry.mapAnnotations_of_forall (inValues v hv)
  rw [mapAnnotations, List.map_congr_left own, List.map_congr_left attributes,
    List.map_congr_left methods, List.map_congr_left values]
  simp only [List.map_id']

/-- A document whose annotations all stay as they are stays as it is. -/
theorem Document.mapAnnotations_of_forall {d : Document}
    (h : ∀ t ∈ d.types, ∀ a ∈ t.allAnnotations, read a = a) : d.mapAnnotations read = d := by
  rw [mapAnnotations, List.map_congr_left fun t ht => TypeEntry.mapAnnotations_of_forall (h t ht),
    List.map_id']

end MapAnnotations

namespace Identifier

theorem isUpper_iff {c : Char} : c.isUpper = true ↔ 'A' ≤ c ∧ c ≤ 'Z' := by
  show decide ('A' ≤ c ∧ c ≤ 'Z') = true ↔ _
  exact decide_eq_true_iff

theorem isLower_iff {c : Char} : c.isLower = true ↔ 'a' ≤ c ∧ c ≤ 'z' := by
  show (decide ('a' ≤ c) && decide (c ≤ 'z')) = true ↔ _
  rw [Bool.and_eq_true, decide_eq_true_iff, decide_eq_true_iff]

theorem isDigit_iff {c : Char} : c.isDigit = true ↔ '0' ≤ c ∧ c ≤ '9' := by
  show (decide ('0' ≤ c) && decide (c ≤ '9')) = true ↔ _
  rw [Bool.and_eq_true, decide_eq_true_iff, decide_eq_true_iff]

theorem mayFollow_iff {c : Char} : mayFollow c = true ↔
    ('A' ≤ c ∧ c ≤ 'Z') ∨ ('a' ≤ c ∧ c ≤ 'z') ∨ ('0' ≤ c ∧ c ≤ '9') ∨ c = '_' := by
  show ((c.isUpper || c.isLower || c.isDigit) || c == '_') = true ↔ _
  simp only [Bool.or_eq_true, isUpper_iff, isLower_iff, isDigit_iff, beq_iff_eq, or_assoc]

theorem mayStart_iff {c : Char} :
    mayStart c = true ↔ mayFollow c = true ∧ ¬('0' ≤ c ∧ c ≤ '9') := by
  rw [mayFollow_iff]
  show ((c.isUpper || c.isLower) || c == '_') = true ↔ _
  simp only [Bool.or_eq_true, isUpper_iff, isLower_iff, beq_iff_eq, or_assoc]
  constructor
  · intro h
    rcases h with upper | lower | rfl
    · exact ⟨.inl upper, fun digit => absurd (Char.le_trans upper.1 digit.2) (by decide)⟩
    · exact ⟨.inr (.inl lower), fun digit => absurd (Char.le_trans lower.1 digit.2) (by decide)⟩
    · decide
  · intro h
    obtain ⟨upper | lower | digit | underscore, notDigit⟩ := h
    · exact .inl upper
    · exact .inr (.inl lower)
    · exact absurd digit notDigit
    · exact .inr (.inr underscore)

/-- The test for identifiers, character by character, decides whether a name is one. -/
theorem isValid_iff {name : String} : isValid name = true ↔ IsIdentifier name := by
  have empty : name = "" ↔ name.toList = [] := by simp
  unfold isValid IsIdentifier
  rw [ne_eq, empty]
  cases name.toList with
  | nil => simp [spells]
  | cons c cs =>
    simp only [spells, Bool.and_eq_true, mayStart_iff, List.all_eq_true, mayFollow_iff]
    constructor
    · intro h
      obtain ⟨⟨hc, hd⟩, hs⟩ := h
      exact ⟨by simp, List.forall_mem_cons.mpr ⟨hc, hs⟩, by simpa using hd⟩
    · intro h
      obtain ⟨-, hs, hd⟩ := h
      obtain ⟨hc, hs⟩ := List.forall_mem_cons.mp hs
      exact ⟨⟨hc, hd c rfl⟩, hs⟩

end Identifier

end ModelDirectives
