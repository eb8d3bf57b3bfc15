import Mathlib.Algebra.Ring.Nat
import ModelDirectives.Proofs.Acceptance
import ModelDirectives.Proofs.DirectiveValues
import ModelDirectives.Report

namespace ModelDirectives

/-- What stands under a parameter in the first annotation of a name. -/
def standing? (annotations : List AnnotationEntry) (name parameter : String) : Option Json :=
  (annotations.find? (·.name = name)).bind fun e =>
    (e.parameters.find? (·.1 = parameter)).map Prod.snd

namespace Json

def asString : Option Json → String
  | some (.string s) => s
  | _ => ""

def asBool : Option Json → Bool
  | some (.bool flag) => flag
  | _ => false

def asTokens : Option Json → List String
  | some (.string s) => Context.split s
  | _ => []

/-- A name that may be written as a string or as a boolean. -/
def asName : Option Json → String
  | some (.string s) => s
  | some (.bool true) => "true"
  | some (.bool false) => "false"
  | _ => ""

/-- The problem of a directive in `json` that has to be a string. -/
def problemAsString (parameter : String) : Option Json → List String
  | some (.bool _) =>
    ["parameter `" ++ parameter ++ "` of annotation `json` is a bool, expected string"]
  | _ => []

/-- The problem of a directive in `json` that has to be a boolean. -/
def problemAsBool (parameter : String) : Option Json → List String
  | some (.string _) =>
    ["parameter `" ++ parameter ++ "` of annotation `json` is a string, expected bool"]
  | _ => []

end Json

/-- The row of a concept by what its annotations say in the document. -/
def Row.ofEntries (path : String) (kind : ConceptKind) (annotations : List AnnotationEntry) :
    Row where
  path := path
  kind := kind
  annotations := annotations.map (·.name)
  directives :=
    { httpName := Json.asName (standing? annotations "http" "name")
      jsonName := Json.asString (standing? annotations "json" "name")
      jsonReadOnly := Json.asBool (standing? annotations "json" "readOnly")
      jsonDefault := Json.asString (standing? annotations "json" "default")
      jsonRequired := Json.asBool (standing? annotations "json" "required")
      jsonContext := Json.asTokens (standing? annotations "json" "context")
      goName := Json.asName (standing? annotations "go" "name") }
  problems :=
    Json.problemAsString "name" (standing? annotations "json" "name") ++
      Json.problemAsBool "readOnly" (standing? annotations "json" "readOnly") ++
      Json.problemAsString "default" (standing? annotations "json" "default") ++
      Json.problemAsBool "required" (standing? annotations "json" "required") ++
      Json.problemAsString "context" (standing? annotations "json" "context")

/-- The rows of a type, its attributes, its methods and its values. -/
def TypeEntry.rows (t : TypeEntry) : List Row :=
  Row.ofEntries t.name .type t.annotations ::
    (t.attributes.map (fun a => Row.ofEntries (t.name ++ "." ++ a.name) .attribute a.annotations) ++
      t.methods.map (fun m => Row.ofEntries (t.name ++ "." ++ m.name) .method m.annotations) ++
      t.values.map (fun v => Row.ofEntries (t.name ++ "." ++ v.name) .value v.annotations))

def Document.rows (d : Document) : List Row :=
  d.types.flatMap TypeEntry.rows

def Document.report (d : Document) : Report where
  rows := d.rows
  totals :=
    { concepts := d.rows.length
      annotated := d.rows.countP (·.annotations ≠ [])
      problems := (d.rows.map (·.problems.length)).sum }

variable {entries : List AnnotationEntry} {name parameter : String}

theorem AnnotationEntry.find?_image (e : AnnotationEntry) :
    e.image.find? parameter =
      ((e.parameters.find? (·.1 = parameter)).map Prod.snd).bind Json.parameterValue := by
  unfold Annotation.find? Annotation.parameter? image
  rw [List.find?_map, Option.bind_map, Option.bind_map]
  rfl

namespace Lookup

variable {α : Type} [Annotated α] {concept : α}

/-- Lookups find what stands in the document, unless it is null or no value of a parameter. -/
theorem value?_of_image (h : annotationsOf concept = entries.map AnnotationEntry.image) :
    value? concept name parameter =
      (standing? entries name parameter).bind Json.parameterValue := by
  unfold value? first? standing?
  rw [h, List.find?_map, Option.bind_map, Option.bind_assoc]
  simp only [Function.comp_def, AnnotationEntry.find?_image]
  rfl

theorem string_of_image (h : annotationsOf concept = entries.map AnnotationEntry.image) :
    string concept name parameter = Json.asString (standing? entries name parameter) := by
  unfold string
  rw [value?_of_image h]
  rcases standing? entries name parameter with _ | (_ | _ | _ | _ | _ | _) <;> rfl

theorem bool_of_image (h : annotationsOf concept = entries.map AnnotationEntry.image) :
    bool concept name parameter = Json.asBool (standing? entries name parameter) := by
  unfold bool
  rw [value?_of_image h]
  rcases standing? entries name parameter with _ | (_ | _ | _ | _ | _ | _) <;> rfl

theorem context_of_image (h : annotationsOf concept = entries.map AnnotationEntry.image) :
    context concept name parameter = Json.asTokens (standing? entries name parameter) := by
  unfold context
  rw [value?_of_image h]
  rcases standing? entries name parameter with _ | (_ | _ | _ | _ | _ | _) <;> rfl

theorem text_of_image (h : annotationsOf concept = entries.map AnnotationEntry.image) :
    text concept name parameter = Json.asName (standing? entries name parameter) := by
  unfold text
  rw [value?_of_image h]
  rcases standing? entries name parameter with _ | (_ | (_ | _) | _ | _ | _ | _) <;> rfl

end Lookup

namespace Directives

variable {α : Type} [Annotated α] {concept : α}

/-- A rule is broken by a value of another kind than the expected one and by nothing else. -/
theorem Rule.breach?_eq (r : Rule) :
    r.breach? concept = (Lookup.value? concept r.name r.parameter).bind fun v =>
      if v.kind = r.expected then none
      else some (.mismatch r.name r.parameter r.expected v.kind) := by
  apply Option.ext
  intro e
  rw [Rule.breach?_eq_some_iff, Option.bind_eq_some_iff]
  simp only [← Lookup.value?_eq_some_iff, Option.ite_none_left_eq_some, Option.some.injEq,
    eq_comm (a := e), ne_eq]

theorem message_in_json (parameter : String) (expected found : Kind) :
    (LookupError.mismatch "json" parameter expected found).message =
      "parameter `" ++ parameter ++
        ("` of annotation `json` is a " ++ found.label ++ ", expected " ++ expected.label) := by
  have named : "` of annotation `json` is a " = "` of annotation `" ++ "json" ++ "` is a " := by
    decide
  rw [named]
  iterate 5 rw [← String.append_assoc]
  rfl

theorem problem_of_string_rule (h : annotationsOf concept = entries.map AnnotationEntry.image) :
    ((Rule.breach? concept ⟨"json", parameter, false⟩).map LookupError.message).toList =
      Json.problemAsString parameter (standing? entries "json" parameter) := by
  rw [Rule.breach?_eq, Lookup.value?_of_image h]
  rcases standing? entries "json" parameter with _ | (_ | _ | _ | _ | _ | _)
  case some.bool => exact congrArg (fun text => [text]) (message_in_json parameter .string .bool)
  all_goals rfl

theorem problem_of_bool_rule (h : annotationsOf concept = entries.map AnnotationEntry.image) :
    ((Rule.breach? concept ⟨"json", parameter, true⟩).map LookupError.message).toList =
      Json.problemAsBool parameter (standing? entries "json" parameter) := by
  rw [Rule.breach?_eq, Lookup.value?_of_image h]
  rcases standing? entries "json" parameter with _ | (_ | _ | _ | _ | _ | _)
  case some.string => exact congrArg (fun text => [text]) (message_in_json parameter .bool .string)
  all_goals rfl

theorem messages_eq : (breaches concept).map LookupError.message =
    rules.flatMap fun r => ((r.breach? concept).map LookupError.message).toList := by
  rw [breaches, List.map_filterMap, List.filterMap_eq_flatMap_toList]

end Directives

/-- The row of a concept is the one evaluated on its entry. -/
theorem Row.ofConcept_image (path : String) (kind : ConceptKind) (entries : List AnnotationEntry) :
    Row.ofConcept ⟨path, kind, entries.map AnnotationEntry.image⟩ =
      Row.ofEntries path kind entries := by
  have h : annotationsOf (⟨path, kind, entries.map AnnotationEntry.image⟩ : Concept) =
      entries.map AnnotationEntry.image := rfl
  have names : (entries.map AnnotationEntry.image).map (·.name) = entries.map (·.name) := by
    rw [List.map_map]
    rfl
  unfold Row.ofConcept Row.ofEntries Directives.resolve Directives.targetName
  rw [Directives.messages_eq, names]
  simp only [Lookup.text_of_image h, Lookup.string_of_image h, Lookup.bool_of_image h,
    Lookup.context_of_image h, Directives.rules, List.flatMap_cons, List.flatMap_nil,
    Directives.problem_of_string_rule h, Directives.problem_of_bool_rule h, List.append_nil,
    List.append_assoc]

theorem TypeEntry.rows_image (t : TypeEntry) : t.image.concepts.map Row.ofConcept = t.rows := by
  simp only [TypeDef.concepts, image, rows, List.map_cons, List.map_append, List.map_map,
    Function.comp_def, AttributeEntry.image, MemberEntry.methodImage, MemberEntry.valueImage,
    Row.ofConcept_image, memberPath]

/-- Rows come type by type and in each type member by member, in the document as in the model. -/
theorem Document.rows_image (d : Document) : d.image.concepts.map Row.ofConcept = d.rows := by
  rw [Model.concepts, List.map_flatMap, image, List.flatMap_map, rows]
  simp only [TypeEntry.rows_image]

theorem Totals.ofRows_eq (rows : List Row) :
    Totals.ofRows rows =
      ⟨rows.length, rows.countP (·.annotations ≠ []), (rows.map (·.problems.length)).sum⟩ := by
  have annotated : ∀ r : Row, (!r.annotations.isEmpty) = decide (r.annotations ≠ []) := by
    intro r
    cases r.annotations <;> rfl
  unfold Totals.ofRows
  simp only [annotated, List.countP_eq_length_filter, List.length_flatMap]

/-- The report of the model that comes of an accepted document is the one evaluated on the
document. -/
theorem Document.report_of_accepted {d : Document} {m : Model} (distinct : d.KeysDistinct)
    (accepted : d.check.verdict = .ok m) : Report.ofModel m = d.report := by
  obtain ⟨-, rfl⟩ := (verdict_eq_ok_iff distinct).mp accepted
  show (⟨d.image.concepts.map Row.ofConcept, Totals.ofRows _⟩ : Report) = _
  rw [rows_image, Totals.ofRows_eq]
  rfl

/-- A document with a name that is a boolean, a flag that is a string, a null and an annotation that
is repeated with another name. -/
def Document.zipSample : Document :=
  ⟨[⟨"Address", .struct,
    [⟨"http", [("name", .bool true)]⟩,
      ⟨"json", [("default", .null), ("readOnly", .string "true"), ("name", .string "address")]⟩,
      ⟨"json", [("name", .string "later"), ("default", .string "none")]⟩],
    [⟨"zip", "String", [⟨"json", [("name", .bool false), ("context", .string "a, b")]⟩]⟩],
    [⟨"get", []⟩], []⟩]⟩

theorem Document.report_of_accepted_zipSample :
    zipSample.KeysDistinct ∧ zipSample.check.verdict = .ok zipSample.image ∧
      Report.ofModel zipSample.image = zipSample.report ∧
      zipSample.report.rows.map (fun r => (r.path, r.directives.jsonName, r.problems)) =
        [("Address", "address",
            ["parameter `readOnly` of annotation `json` is a string, expected bool"]),
          ("Address.zip", "",
            ["parameter `name` of annotation `json` is a bool, expected string"]),
          ("Address.get", "", [])] ∧
      zipSample.report.totals = ⟨3, 2, 2⟩ := by
  have distinct : zipSample.KeysDistinct := by decide
  have accepted : zipSample.check.verdict = .ok zipSample.image := rfl
  exact ⟨distinct, accepted, report_of_accepted distinct accepted, rfl, rfl⟩

end ModelDirectives
