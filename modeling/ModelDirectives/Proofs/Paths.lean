import Mathlib.Data.List.Nodup
import ModelDirectives.Proofs.Acceptance
import ModelDirectives.Proofs.Lookups
import ModelDirectives.Proofs.ReportCoverage
import ModelDirectives.Proofs.WellFormed

namespace ModelDirectives

theorem IsIdentifier.dot_not_mem {name : String} (h : IsIdentifier name) : '.' ∉ name.toList := by
  intro dot
  have allowed := h.2.1 '.' dot
  revert allowed
  decide

section MemberPath

variable {owner owner' name name' : String}

theorem memberPath_toList :
    (memberPath owner name).toList = owner.toList ++ '.' :: name.toList := by
  simp [memberPath]

/-- The path of a member has a dot in it, which that of a type has not. -/
theorem dot_mem_memberPath : '.' ∈ (memberPath owner name).toList := by
  simp [memberPath_toList]

/-- A path without further dots tells the type from the member. -/
theorem memberPath_inj (plain : '.' ∉ owner.toList) (plain' : '.' ∉ name.toList)
    (same : memberPath owner name = memberPath owner' name') : owner = owner' ∧ name = name' := by
  have lists := congrArg String.toList same
  rw [memberPath_toList, memberPath_toList, List.append_cons_inj_of_notMem plain plain'] at lists
  exact ⟨String.toList_injective lists.1, String.toList_injective lists.2.2⟩

end MemberPath

namespace TypeDef

variable {t : TypeDef}

theorem map_path_concepts (t : TypeDef) :
    t.concepts.map (·.path) = t.name :: t.memberNames.map (memberPath t.name) := by
  simp [concepts, memberNames, Function.comp_def]

/-- The member of a type that a row is about. Among the attributes it is found under its name
exactly when it is one. -/
inductive Owns (t : TypeDef) (name : String) (r : Row) : Prop
  | attribute {a : Attribute} (kind : r.kind = .attribute) (mem : a ∈ t.attributes)
      (named : a.name = name) (found : t.attribute? name = some a)
      (shows : r.Shows ⟨t.name ++ "." ++ name, .attribute, a.annotations⟩)
  | method {x : Method} (kind : r.kind = .method) (mem : x ∈ t.methods) (named : x.name = name)
      (missing : t.attribute? name = none)
      (shows : r.Shows ⟨t.name ++ "." ++ name, .method, x.annotations⟩)
  | value {v : EnumValue} (kind : r.kind = .value) (mem : v ∈ t.values) (named : v.name = name)
      (missing : t.attribute? name = none)
      (shows : r.Shows ⟨t.name ++ "." ++ name, .value, v.annotations⟩)

theorem Owns.isSome_attribute?_iff {name : String} {r : Row} (h : t.Owns name r) :
    (t.attribute? name).isSome ↔ r.kind = .attribute := by
  rcases h with ⟨kind, _, _, found, _⟩ | ⟨kind, _, _, missing, _⟩ | ⟨kind, _, _, missing, _⟩
  · simp [found, kind]
  · simp [missing, kind]
  · simp [missing, kind]

theorem path_mem_iff {path : String} : path ∈ t.concepts.map (·.path) ↔
    path = t.name ∨ ∃ name ∈ t.memberNames, path = memberPath t.name name := by
  rw [map_path_concepts, List.mem_cons, List.mem_map]
  simp only [eq_comm]

theorem paths_nodup (h : t.WellFormed) : (t.concepts.map (·.path)).Nodup := by
  rw [map_path_concepts, List.nodup_cons]
  constructor
  · intro own
    obtain ⟨name, -, same⟩ := List.mem_map.mp own
    exact h.name.dot_not_mem (same ▸ dot_mem_memberPath)
  · refine List.Nodup.map_on ?_ h.distinct
    intro name hn name' _ same
    exact (memberPath_inj h.name.dot_not_mem (h.members name hn).dot_not_mem same).2

/-- Types of different names share no path. -/
theorem paths_disjoint {u : TypeDef} (h : t.WellFormed) (hu : u.WellFormed)
    (other : t.name ≠ u.name) :
    List.Disjoint (t.concepts.map (·.path)) (u.concepts.map (·.path)) := by
  intro path inT inU
  rcases path_mem_iff.mp inT with rfl | ⟨name, hn, rfl⟩
  · rcases path_mem_iff.mp inU with same | ⟨name, -, same⟩
    · exact other same
    · exact h.name.dot_not_mem (same ▸ dot_mem_memberPath)
  · rcases path_mem_iff.mp inU with same | ⟨name', -, same⟩
    · exact hu.name.dot_not_mem (same ▸ dot_mem_memberPath)
    · exact other (memberPath_inj h.name.dot_not_mem (h.members name hn).dot_not_mem same).1

theorem attribute?_of_mem {a : Attribute} (h : t.WellFormed) (ha : a ∈ t.attributes) :
    t.attribute? a.name = some a :=
  find?_of_mem_of_nodup (List.nodup_append.mp h.distinct).1 ha

/-- What is named like a method or a value is no attribute. -/
theorem attribute?_eq_none {name : String} (h : t.WellFormed)
    (hn : name ∈ t.methods.map (·.name) ++ t.values.map (·.name)) : t.attribute? name = none := by
  have apart := (List.nodup_append.mp h.distinct).2.2
  apply List.find?_eq_none.mpr
  intro a ha named
  exact apart _ (List.mem_map_of_mem ha) _ hn (of_decide_eq_true named)

/-- A member is found under its name as far as it is an attribute. -/
theorem exists_owns (h : t.WellFormed) {c : Concept} (hc : c ∈ t.concepts) :
    c = ⟨t.name, .type, t.annotations⟩ ∨ ∃ name ∈ t.memberNames,
      c.path = memberPath t.name name ∧ t.Owns name (Row.ofConcept c) := by
  unfold concepts at hc
  simp only [List.mem_cons, List.mem_append, List.mem_map] at hc
  rcases hc with own | (⟨a, ha, rfl⟩ | ⟨x, hx, rfl⟩) | ⟨v, hv, rfl⟩
  · exact .inl own
  · have mem : a.name ∈ t.memberNames := List.mem_append_left _ (List.mem_map_of_mem ha)
    exact .inr ⟨a.name, mem, rfl,
      .attribute rfl ha rfl (attribute?_of_mem h ha) (Row.ofConcept_shows _)⟩
  · have mem : x.name ∈ t.methods.map (·.name) ++ t.values.map (·.name) :=
      List.mem_append_left _ (List.mem_map_of_mem hx)
    exact .inr ⟨x.name, List.mem_append_right _ mem, rfl,
      .method rfl hx rfl (attribute?_eq_none h mem) (Row.ofConcept_shows _)⟩
  · have mem : v.name ∈ t.methods.map (·.name) ++ t.values.map (·.name) :=
      List.mem_append_right _ (List.mem_map_of_mem hv)
    exact .inr ⟨v.name, List.mem_append_right _ mem, rfl,
      .value rfl hv rfl (attribute?_eq_none h mem) (Row.ofConcept_shows _)⟩

end TypeDef

namespace Model

variable {m : Model}

/-- The concept that a path leads to. A path without a dot is the name of a type that is found under
it. Any other path has one dot: a type is found under what stands before it, and what stands behind
it names one member of that type, which is found among the attributes exactly when the row is that
of an attribute. In both cases the row is that of the concept. -/
inductive Identifies (m : Model) (r : Row) : Prop
  | type {t : TypeDef} (plain : '.' ∉ r.path.toList) (kind : r.kind = .type)
      (found : m.type? r.path = some t) (shows : r.Shows ⟨t.name, .type, t.annotations⟩)
  | member {t : TypeDef} {owner name : String} (path : r.path = owner ++ "." ++ name)
      (plainOwner : '.' ∉ owner.toList) (plainName : '.' ∉ name.toList)
      (found : m.type? owner = some t) (once : t.memberNames.count name = 1)
      (isAttribute : (t.attribute? name).isSome ↔ r.kind = .attribute) (owns : t.Owns name r)

theorem paths_nodup (h : m.WellFormed) : ((Report.ofModel m).rows.map (·.path)).Nodup := by
  have paths : (Report.ofModel m).rows.map (·.path) =
      m.types.flatMap fun t => t.concepts.map (·.path) := by
    show (m.concepts.map Row.ofConcept).map (·.path) = _
    rw [List.map_map]
    exact List.map_flatMap ..
  rw [paths, List.nodup_flatMap]
  constructor
  · intro t ht
    exact TypeDef.paths_nodup (h.types t ht)
  · refine (List.pairwise_map.mp h.distinct).imp_of_mem ?_
    intro t u ht hu other
    exact TypeDef.paths_disjoint (h.types t ht) (h.types u hu) other

theorem type?_of_mem {t : TypeDef} (h : m.WellFormed) (ht : t ∈ m.types) :
    m.type? t.name = some t :=
  find?_of_mem_of_nodup h.distinct ht

/-- A row of the report leads back to its concept by its path. -/
theorem identifies (h : m.WellFormed) {r : Row} (hr : r ∈ (Report.ofModel m).rows) :
    m.Identifies r := by
  obtain ⟨c, hc, rfl⟩ := List.mem_map.mp hr
  obtain ⟨t, ht, hc⟩ := List.mem_flatMap.mp hc
  have wellFormed := h.types t ht
  rcases TypeDef.exists_owns wellFormed hc with rfl | ⟨name, hn, path, owns⟩
  · exact .type wellFormed.name.dot_not_mem rfl (type?_of_mem h ht) (Row.ofConcept_shows _)
  · exact .member path wellFormed.name.dot_not_mem (wellFormed.members name hn).dot_not_mem
      (type?_of_mem h ht) (List.count_eq_one_of_mem wellFormed.distinct hn)
      owns.isSome_attribute?_iff owns

end Model

theorem Document.wellFormed_of_check {d : Document} {m : Model} (distinct : d.KeysDistinct)
    (accepted : d.check.verdict = .ok m) : m.WellFormed := by
  obtain ⟨acceptable, rfl⟩ := (verdict_eq_ok_iff distinct).mp accepted
  rw [Model.wellFormed_iff, document_image acceptable]
  exact ⟨acceptable, distinct⟩

/-- In the report of a model that comes of an accepted document no two rows have one path, and each
path leads back to the concept that the row is about. -/
theorem Document.paths_identify {d : Document} {m : Model} (distinct : d.KeysDistinct)
    (accepted : d.check.verdict = .ok m) :
    ((Report.ofModel m).rows.map (·.path)).Nodup ∧
      ∀ r ∈ (Report.ofModel m).rows, m.Identifies r := by
  have wellFormed := wellFormed_of_check distinct accepted
  exact ⟨Model.paths_nodup wellFormed, fun _ => Model.identifies wellFormed⟩

/-- A document with two types, whose members bear one another's names. -/
def Document.twoTypes : Document :=
  ⟨[⟨"Color", .enum, [], [⟨"id", "String", []⟩], [⟨"get", []⟩], [⟨"red", [⟨"go", []⟩]⟩]⟩,
    ⟨"Address", .classType, [], [⟨"red", "Color", []⟩], [⟨"Color", []⟩], []⟩]⟩

theorem Document.paths_identify_twoTypes :
    twoTypes.KeysDistinct ∧ twoTypes.check.verdict = .ok twoTypes.image ∧
      (Report.ofModel twoTypes.image).rows.map (fun r => (r.path, r.kind)) =
        [("Color", .type), ("Color.id", .attribute), ("Color.get", .method), ("Color.red", .value),
          ("Address", .type), ("Address.red", .attribute), ("Address.Color", .method)] ∧
      ((Report.ofModel twoTypes.image).rows.map (·.path)).Nodup ∧
      ∀ r ∈ (Report.ofModel twoTypes.image).rows, twoTypes.image.Identifies r := by
  have distinct : twoTypes.KeysDistinct := by decide
  have accepted : twoTypes.check.verdict = .ok twoTypes.image := rfl
  exact ⟨distinct, accepted, rfl, paths_identify distinct accepted⟩

end ModelDirectives
