import ModelDirectives.Document.Validation
import ModelDirectives.Proofs.Checks
import ModelDirectives.Proofs.KeyedLists

namespace ModelDirectives

open Check Remark

theorem checkName_tells (subject : Subject) (name : String) : (checkName subject name).Tells
    (given (¬IsIdentifier name) (.violation (.invalidName subject name))) () :=
  require_tells _ (Identifier.isValid_iff.trans Decidable.not_not.symm)

theorem checkParameter_tells (name owner : String) (m : String × Json) :
    (checkParameter name owner m).Tells
      (given (¬IsIdentifier m.1) (.violation (.invalidName (.parameterOf name owner) m.1)) ++
        given (¬m.2.Supported) (.violation (.unsupportedValue m.1 name owner m.2)))
      ⟨m.1, m.2.parameterValue⟩ := by
  obtain ⟨p, j⟩ := m
  refine (checkName_tells _ p).bind ?_
  cases j with
  | string _ | bool _ | null => exact accept_tells _
  | number _ | array _ | object _ => exact refuse_tells _ _

namespace AnnotationEntry

theorem collected_of_keysDistinct {e : AnnotationEntry} (distinct : e.KeysDistinct) :
    e.collected = e := by
  rw [collected, mapParameters, Json.collect_of_nodup distinct]

theorem collected_keysDistinct (e : AnnotationEntry) : e.collected.KeysDistinct :=
  Json.collect_nodup e.parameters

/-- Parameters may be written over one another before they are read as values or afterwards. -/
theorem ofParameters_eq_image (e : AnnotationEntry) :
    Annotation.ofParameters e.name (e.parameters.map fun m => ⟨m.1, m.2.parameterValue⟩) =
      e.collected.image := by
  let parameter (m : String × Json) : Parameter := ⟨m.1, m.2.parameterValue⟩
  have late : Keyed.collect (·.name) (e.parameters.map parameter) =
      (Keyed.collect Prod.fst e.parameters).map parameter :=
    Keyed.collect_map (fun _ => rfl) e.parameters
  have built := Annotation.ofParameters_eq e.name (e.parameters.map parameter)
  rw [late, ← Json.collect_eq] at built
  exact built

/-- The checks of an annotation make the remarks on it when `repeated` tells whether one of its name
stands before it. -/
theorem check_tells (owner : String) {repeated : Bool} {before : List AnnotationEntry}
    (e : AnnotationEntry) (same : repeated = true ↔ ∃ f ∈ before, f.name = e.name) :
    (e.check owner repeated).Tells (e.remarks owner before) e.collected.image := by
  have parameters := each_tells (checkParameter_tells e.name owner) e.parameters
  have built := parameters.bind_accept <| Annotation.ofParameters e.name
  rw [ofParameters_eq_image] at built
  unfold remarks
  rw [List.append_assoc]
  refine (checkName_tells _ e.name).bind ?_
  unfold given
  cases repeated with
  | false =>
    rw [if_neg fun h => Bool.false_ne_true (same.mpr h)]
    exact built
  | true =>
    rw [if_pos (same.mp rfl)]
    exact (notice_tells _).bind built

theorem checkAll_tells (owner : String) (es : List AnnotationEntry) :
    (checkAll owner [] es).Tells (inTurn (remarks owner) es) ((es.map collected).map image) := by
  rw [List.map_map]
  refine loop_tells AnnotationEntry.name [] (checkAll owner) (fun _ => rfl) ?_ es
  intro taken before e rest ss as remembered later
  have same : taken.contains e.name = true ↔ ∃ f ∈ before, f.name = e.name := by
    simpa using remembered e.name
  exact (check_tells owner e same).bind (later.bind_accept (e.collected.image :: ·))

end AnnotationEntry

open AnnotationEntry (collected)

/-- Members of one sort are checked against the names taken by the sorts before and those of their
own sort so far. -/
theorem checkMembers_tells {ε μ : Type} (subject : Subject) (owner : String) (nameOf : ε → String)
    (others taken : List String) (same : ∀ n, n ∈ taken ↔ n ∈ others) {build : ε → Check μ}
    {parts : ε → List Remark} {result : ε → μ} (item : ∀ e, (build e).Tells (parts e) (result e))
    (es : List ε) : (checkMembers subject owner nameOf build taken es).Tells
      (inTurn (memberRemarks subject owner nameOf others parts) es) (es.map result) := by
  refine loop_tells nameOf taken (checkMembers subject owner nameOf build) (fun _ => rfl) ?_ es
  intro names before e rest ss ms remembered later
  have fault : (!names.contains (nameOf e)) = true ↔
      ¬(nameOf e ∈ others ∨ ∃ f ∈ before, nameOf f = nameOf e) := by
    rw [← same, ← remembered]
    simp
  unfold memberRemarks
  rw [List.append_assoc, List.append_assoc]
  exact (checkName_tells subject _).bind <| (require_tells _ fault).bind <|
    (item e).bind <| later.bind_accept (result e :: ·)

theorem AttributeEntry.check_tells (owner : String) (e : AttributeEntry) :
    (e.check owner).Tells (e.remarks owner) (e.mapAnnotations collected).image := by
  have fault : (!Text.blank e.typeName) = true ↔ ¬e.typeName.toList.all Text.isBlank = true := by
    simp [Text.blank]
  exact (require_tells _ fault).bind <|
    (AnnotationEntry.checkAll_tells _ e.annotations).bind_accept (Attribute.mk e.name e.typeName)

theorem MemberEntry.checkMethod_tells (owner : String) (e : MemberEntry) :
    (e.checkMethod owner).Tells (e.remarks owner) (e.mapAnnotations collected).methodImage :=
  (AnnotationEntry.checkAll_tells _ e.annotations).bind_accept (Method.mk e.name)

theorem MemberEntry.checkValue_tells (owner : String) (e : MemberEntry) :
    (e.checkValue owner).Tells (e.remarks owner) (e.mapAnnotations collected).valueImage :=
  (AnnotationEntry.checkAll_tells _ e.annotations).bind_accept (EnumValue.mk e.name)

namespace TypeEntry

/-- Remarks on a type behind those on its name. -/
theorem check_tells (t : TypeEntry) : ∃ rs, t.check.Tells rs (t.mapAnnotations collected).image ∧
    ∀ before, t.remarks before =
      given (¬IsIdentifier t.name) (.violation (.invalidName .type t.name)) ++
        (given (∃ u ∈ before, u.name = t.name) (.violation (.typeRepeated t.name)) ++ rs) := by
  have annotations := AnnotationEntry.checkAll_tells t.name t.annotations
  have attributes := checkMembers_tells .attribute t.name AttributeEntry.name [] []
    (fun _ => Iff.rfl) (AttributeEntry.check_tells t.name) t.attributes
  have methods := checkMembers_tells .method t.name MemberEntry.name
    (t.attributes.map (·.name)) _ (fun _ => Iff.rfl) (MemberEntry.checkMethod_tells t.name)
    t.methods
  have values := checkMembers_tells .enumValue t.name MemberEntry.name
    (t.attributes.map (·.name) ++ t.methods.map (·.name))
    (t.methods.map (·.name) ++ t.attributes.map (·.name))
    (fun _ => by rw [List.mem_append, List.mem_append, or_comm])
    (MemberEntry.checkValue_tells t.name) t.values
  have fault : (t.values.isEmpty || t.kind = .enum) = true ↔
      ¬(t.values ≠ [] ∧ t.kind ≠ .enum) := by
    simpa using Decidable.or_iff_not_imp_left
  have built : (t.mapAnnotations collected).image = ⟨t.name, t.kind,
      (t.annotations.map collected).map AnnotationEntry.image,
      t.attributes.map fun a => (a.mapAnnotations collected).image,
      t.methods.map fun m => (m.mapAnnotations collected).methodImage,
      t.values.map fun v => (v.mapAnnotations collected).valueImage⟩ := by
    simp only [image, mapAnnotations, List.map_map, Function.comp_def]
  rw [built]
  refine ⟨_, annotations.bind <| attributes.bind <| methods.bind <|
    (require_tells (.valuesOutsideEnum t.name) fault).bind <|
      values.bind_accept (TypeDef.mk t.name t.kind _ _ _), ?_⟩
  intro before
  simp only [remarks, List.append_assoc]

theorem checkAll_tells (ts : List TypeEntry) : (checkAll [] ts).Tells (inTurn remarks ts)
    (ts.map fun t => (t.mapAnnotations collected).image) := by
  refine loop_tells TypeEntry.name [] checkAll (fun _ => rfl) ?_ ts
  intro taken before t rest ss ds remembered later
  have fault : (!taken.contains t.name) = true ↔ ¬∃ u ∈ before, u.name = t.name := by
    simpa using not_congr (remembered t.name)
  obtain ⟨rs, told, eq⟩ := t.check_tells
  rw [eq, List.append_assoc, List.append_assoc]
  exact (checkName_tells .type _).bind <| (require_tells _ fault).bind <|
    told.bind <| later.bind_accept (_ :: ·)

end TypeEntry

/-- The check of a document makes the remarks on it, and builds the image of what is left when
parameters are written over one another. -/
theorem Document.check_tells (d : Document) :
    d.check.Tells d.remarks (d.mapAnnotations collected).image := by
  have types := TypeEntry.checkAll_tells d.types
  have fault : (!(d.types.map fun t => (t.mapAnnotations collected).image).isEmpty) = true ↔
      ¬d.types = [] := by
    simp
  have built : (d.mapAnnotations collected).image =
      ⟨d.types.map fun t => (t.mapAnnotations collected).image⟩ := by
    simp only [image, mapAnnotations, List.map_map, Function.comp_def]
  have length := d.types.length_map fun t => (t.mapAnnotations collected).image
  rw [built, remarks, List.append_assoc, ← length]
  exact types.bind <| (require_tells _ fault).bind <| (notice_tells _).bind_accept _

end ModelDirectives
