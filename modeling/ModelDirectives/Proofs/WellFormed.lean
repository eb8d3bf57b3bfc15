import ModelDirectives.Document.Writing
import ModelDirectives.Proofs.Acceptable

namespace ModelDirectives

def Annotation.WellFormed (a : Annotation) : Prop :=
  IsIdentifier a.name ∧ (∀ p ∈ a.parameters, IsIdentifier p.name) ∧
    (a.parameters.map (·.name)).Nodup

namespace TypeDef

def memberNames (t : TypeDef) : List String :=
  t.attributes.map (·.name) ++ (t.methods.map (·.name) ++ t.values.map (·.name))

def allAnnotations (t : TypeDef) : List Annotation :=
  t.annotations ++ (t.attributes.flatMap (·.annotations) ++
    (t.methods.flatMap (·.annotations) ++ t.values.flatMap (·.annotations)))

structure WellFormed (t : TypeDef) : Prop where
  name : IsIdentifier t.name
  members : ∀ name ∈ t.memberNames, IsIdentifier name
  distinct : t.memberNames.Nodup
  typed : ∀ a ∈ t.attributes, ∃ c ∈ a.typeName.toList, ¬Text.isBlank c
  enum : t.values ≠ [] → t.kind = .enum
  annotations : ∀ a ∈ t.allAnnotations, a.WellFormed

end TypeDef

structure Model.WellFormed (m : Model) : Prop where
  nonempty : m.types ≠ []
  distinct : (m.types.map (·.name)).Nodup
  types : ∀ t ∈ m.types, t.WellFormed

theorem map_cancel {α β : Type} {f : α → β} {g : β → α} {xs : List α} (h : ∀ x ∈ xs, g (f x) = x) :
    (xs.map f).map g = xs := by
  rw [List.map_map]
  exact (List.map_congr_left h).trans (List.map_id xs)

namespace Parameter

theorem entry_name (p : Parameter) : p.entry.1 = p.name := by
  unfold entry
  split <;> rfl

theorem entry_supported (p : Parameter) : p.entry.2.Supported := by
  unfold entry
  split <;> trivial

theorem entry_value (p : Parameter) : p.entry.2.parameterValue = p.value := by
  unfold entry
  split
  next h => exact h.symm
  next h => exact h.symm
  next h => exact h.symm

theorem entry_of_supported {m : String × Json} (h : m.2.Supported) :
    entry ⟨m.1, m.2.parameterValue⟩ = m := by
  obtain ⟨k, j⟩ := m
  cases j with
  | null | bool | string => rfl
  | number | array | object => cases h

end Parameter

theorem Annotation.image_entry (a : Annotation) : a.entry.image = a := by
  have parameters : (a.parameters.map Parameter.entry).map
      (fun m => ⟨m.1, m.2.parameterValue⟩) = a.parameters :=
    map_cancel fun p _ => by rw [p.entry_name, p.entry_value]
  unfold AnnotationEntry.image entry
  rw [parameters]

theorem AnnotationEntry.entry_image {e : AnnotationEntry} (h : e.Acceptable) :
    e.image.entry = e := by
  have parameters : (e.parameters.map fun m => ⟨m.1, m.2.parameterValue⟩).map Parameter.entry =
      e.parameters := map_cancel fun m hm => Parameter.entry_of_supported (h.2 m hm).2
  unfold Annotation.entry image
  rw [parameters]

theorem map_image_entry (as : List Annotation) :
    (as.map Annotation.entry).map AnnotationEntry.image = as :=
  map_cancel fun a _ => a.image_entry

theorem map_entry_image {es : List AnnotationEntry} (h : ∀ e ∈ es, e.Acceptable) :
    (es.map AnnotationEntry.image).map Annotation.entry = es :=
  map_cancel fun e he => AnnotationEntry.entry_image (h e he)

theorem TypeDef.image_entry (t : TypeDef) : t.entry.image = t := by
  have attributes : (t.attributes.map Attribute.entry).map AttributeEntry.image = t.attributes :=
    map_cancel fun a _ => by rw [AttributeEntry.image, Attribute.entry, map_image_entry]
  have methods : (t.methods.map Method.entry).map MemberEntry.methodImage = t.methods :=
    map_cancel fun m _ => by rw [MemberEntry.methodImage, Method.entry, map_image_entry]
  have values : (t.values.map EnumValue.entry).map MemberEntry.valueImage = t.values :=
    map_cancel fun v _ => by rw [MemberEntry.valueImage, EnumValue.entry, map_image_entry]
  unfold TypeEntry.image entry
  rw [map_image_entry, attributes, methods, values]

theorem TypeEntry.entry_image {t : TypeEntry} (h : t.Acceptable) : t.image.entry = t := by
  obtain ⟨own, inAttributes, inMethods, inValues⟩ := forall_mem_allAnnotations.mp h.annotations
  have attributes : (t.attributes.map AttributeEntry.image).map Attribute.entry = t.attributes :=
    map_cancel fun a ha => by
      rw [Attribute.entry, AttributeEntry.image, map_entry_image (inAttributes a ha)]
  have methods : (t.methods.map MemberEntry.methodImage).map Method.entry = t.methods :=
    map_cancel fun m hm => by
      rw [Method.entry, MemberEntry.methodImage, map_entry_image (inMethods m hm)]
  have values : (t.values.map MemberEntry.valueImage).map EnumValue.entry = t.values :=
    map_cancel fun v hv => by
      rw [EnumValue.entry, MemberEntry.valueImage, map_entry_image (inValues v hv)]
  unfold TypeDef.entry image
  rw [map_entry_image own, attributes, methods, values]

/-- The document of a model describes this model. -/
theorem Model.image_document (m : Model) : m.document.image = m := by
  unfold Document.image document
  rw [map_cancel fun t _ => t.image_entry]

/-- An acceptable document is the one that is made for its image. -/
theorem Document.document_image {d : Document} (h : d.Acceptable) : d.image.document = d := by
  unfold Model.document image
  rw [map_cancel fun t ht => TypeEntry.entry_image (h.types t ht)]

theorem Annotation.wellFormed_iff {a : Annotation} :
    a.WellFormed ↔ a.entry.Acceptable ∧ a.entry.KeysDistinct := by
  have names : a.entry.parameters.map Prod.fst = a.parameters.map (·.name) := by
    simp [entry, Function.comp_def, Parameter.entry_name]
  have each : (∀ m ∈ a.entry.parameters, IsIdentifier m.1 ∧ m.2.Supported) ↔
      ∀ p ∈ a.parameters, IsIdentifier p.name := by
    rw [entry, List.forall_mem_map]
    simp only [Parameter.entry_name, Parameter.entry_supported, and_true]
  rw [AnnotationEntry.Acceptable, AnnotationEntry.KeysDistinct, names, each, WellFormed, and_assoc]
  rfl

namespace TypeDef

theorem entry_memberNames (t : TypeDef) : t.entry.memberNames = t.memberNames := by
  simp [TypeEntry.memberNames, memberNames, entry, Attribute.entry, Method.entry, EnumValue.entry,
    Function.comp_def]

theorem entry_allAnnotations (t : TypeDef) :
    t.entry.allAnnotations = t.allAnnotations.map Annotation.entry := by
  simp [TypeEntry.allAnnotations, allAnnotations, entry, Attribute.entry, Method.entry,
    EnumValue.entry, List.map_flatMap, List.flatMap_map]

theorem wellFormed_iff {t : TypeDef} : t.WellFormed ↔
    IsIdentifier t.name ∧ t.entry.Acceptable ∧ ∀ e ∈ t.entry.allAnnotations, e.KeysDistinct := by
  have typed : (∀ a ∈ t.entry.attributes, ∃ c ∈ a.typeName.toList, ¬Text.isBlank c) ↔
      ∀ a ∈ t.attributes, ∃ c ∈ a.typeName.toList, ¬Text.isBlank c := by
    rw [entry, List.forall_mem_map]
    rfl
  have enum : (t.entry.values ≠ [] → t.entry.kind = .enum) ↔ (t.values ≠ [] → t.kind = .enum) := by
    rw [entry, ne_eq, List.map_eq_nil_iff]
  constructor
  · intro h
    obtain ⟨name, members, distinct, types, kind, annotations⟩ := h
    have both := fun a ha => Annotation.wellFormed_iff.mp (annotations a ha)
    rw [entry_allAnnotations]
    refine ⟨name, ⟨?_, ?_, typed.mpr types, enum.mpr kind, ?_⟩, ?_⟩
    · rwa [entry_memberNames]
    · rwa [entry_memberNames]
    · rw [entry_allAnnotations, List.forall_mem_map]
      exact fun a ha => (both a ha).1
    · rw [List.forall_mem_map]
      exact fun a ha => (both a ha).2
  · intro h
    obtain ⟨name, ⟨members, distinct, types, kind, annotations⟩, keys⟩ := h
    rw [entry_allAnnotations, List.forall_mem_map] at annotations keys
    rw [entry_memberNames] at members distinct
    exact ⟨name, members, distinct, typed.mp types, enum.mp kind,
      fun a ha => Annotation.wellFormed_iff.mpr ⟨annotations a ha, keys a ha⟩⟩

end TypeDef

/-- A model is well formed when its document is acceptable and repeats no key. -/
theorem Model.wellFormed_iff {m : Model} :
    m.WellFormed ↔ m.document.Acceptable ∧ m.document.KeysDistinct := by
  have names : m.document.types.map (·.name) = m.types.map (·.name) := by
    simp [document, TypeDef.entry, Function.comp_def]
  constructor
  · intro h
    obtain ⟨nonempty, distinct, types⟩ := h
    have each := fun t ht => TypeDef.wellFormed_iff.mp (types t ht)
    refine ⟨⟨?_, ?_, ?_, ?_⟩, ?_⟩
    · rwa [document, ne_eq, List.map_eq_nil_iff]
    · rw [document, List.forall_mem_map]
      exact fun t ht => (each t ht).1
    · rwa [names]
    · rw [document, List.forall_mem_map]
      exact fun t ht => (each t ht).2.1
    · rw [Document.KeysDistinct, document, List.forall_mem_map]
      exact fun t ht => (each t ht).2.2
  · intro h
    obtain ⟨⟨nonempty, named, distinct, types⟩, keys⟩ := h
    rw [names] at distinct
    rw [document, ne_eq, List.map_eq_nil_iff] at nonempty
    rw [document, List.forall_mem_map] at named types
    rw [Document.KeysDistinct, document, List.forall_mem_map] at keys
    exact ⟨nonempty, distinct,
      fun t ht => TypeDef.wellFormed_iff.mpr ⟨named t ht, types t ht, keys t ht⟩⟩

end ModelDirectives
