import ModelDirectives.Proofs.Printing
import ModelDirectives.Report.Encoding

namespace ModelDirectives

namespace Json

/-- What an object holds under a key. -/
def member? (j : Json) (key : String) : Option Json :=
  match j with
  | .object ms => (ms.find? (·.1 = key)).map Prod.snd
  | _ => none

/-- An object with certain keys in a certain order, and no others. -/
def HasKeys (j : Json) (keys : List String) : Prop :=
  ∃ ms, j = .object ms ∧ ms.map Prod.fst = keys

end Json

structure Directives.ShownBy (d : Directives) (j : Json) : Prop where
  keys : j.HasKeys ["http_name", "json_name", "json_read_only", "json_default", "json_required",
    "json_context", "go_name"]
  httpName : j.member? "http_name" = some (.string d.httpName)
  jsonName : j.member? "json_name" = some (.string d.jsonName)
  jsonReadOnly : j.member? "json_read_only" = some (.bool d.jsonReadOnly)
  jsonDefault : j.member? "json_default" = some (.string d.jsonDefault)
  jsonRequired : j.member? "json_required" = some (.bool d.jsonRequired)
  jsonContext : j.member? "json_context" = some (.array (d.jsonContext.map .string))
  goName : j.member? "go_name" = some (.string d.goName)

/-- The problems have a key of their own exactly when there are some. -/
structure Row.ShownBy (r : Row) (j : Json) : Prop where
  keys : j.HasKeys (["path", "kind", "annotations", "directives"] ++
    if r.problems = [] then [] else ["problems"])
  path : j.member? "path" = some (.string r.path)
  kind : j.member? "kind" = some (.string r.kind.label)
  annotations : j.member? "annotations" = some (.array (r.annotations.map .string))
  directives : ∃ v, j.member? "directives" = some v ∧ r.directives.ShownBy v
  problems : j.member? "problems" =
    if r.problems = [] then none else some (.array (r.problems.map .string))

structure Totals.ShownBy (t : Totals) (j : Json) : Prop where
  keys : j.HasKeys ["concepts", "annotated", "problems"]
  concepts : j.member? "concepts" = some (.number (.int t.concepts))
  annotated : j.member? "annotated" = some (.number (.int t.annotated))
  problems : j.member? "problems" = some (.number (.int t.problems))

structure Report.ShownBy (r : Report) (j : Json) : Prop where
  keys : j.HasKeys ["concepts", "totals"]
  rows : ∃ vs, j.member? "concepts" = some (.array vs) ∧ List.Forall₂ Row.ShownBy r.rows vs
  totals : ∃ v, j.member? "totals" = some v ∧ r.totals.ShownBy v

/-- Totals of 64 bits; nothing is asked of how they relate to the rows. -/
structure Totals.Fit (t : Totals) : Prop where
  concepts : t.concepts ≤ 0xffffffffffffffff
  annotated : t.annotated ≤ 0xffffffffffffffff
  problems : t.problems ≤ 0xffffffffffffffff

theorem Directives.shownBy_toJson (d : Directives) : d.ShownBy d.toJson where
  keys := ⟨_, rfl, rfl⟩
  httpName := rfl
  jsonName := rfl
  jsonReadOnly := rfl
  jsonDefault := rfl
  jsonRequired := rfl
  jsonContext := rfl
  goName := rfl

theorem Row.shownBy_toJson (r : Row) : r.ShownBy r.toJson := by
  obtain ⟨path, kind, annotations, directives, problems⟩ := r
  cases problems with
  | nil => exact ⟨⟨_, rfl, rfl⟩, rfl, rfl, rfl, ⟨_, rfl, directives.shownBy_toJson⟩, rfl⟩
  | cons problem problems =>
    exact ⟨⟨_, rfl, rfl⟩, rfl, rfl, rfl, ⟨_, rfl, directives.shownBy_toJson⟩, rfl⟩

theorem Totals.shownBy_toJson (t : Totals) : t.ShownBy t.toJson :=
  ⟨⟨_, rfl, rfl⟩, rfl, rfl, rfl⟩

/-- The document of a report shows it. -/
theorem Report.shownBy_toJson (r : Report) : r.ShownBy r.toJson := by
  refine ⟨⟨_, rfl, rfl⟩, ⟨_, rfl, ?_⟩, ⟨_, rfl, r.totals.shownBy_toJson⟩⟩
  rw [List.forall₂_map_right_iff, List.forall₂_same]
  exact fun row _ => row.shownBy_toJson

theorem ConceptKind.label_inj {k l : ConceptKind} (h : k.label = l.label) : k = l := by
  cases k <;> cases l <;> first | rfl | exact absurd h (by decide)

namespace Json

variable {m : Option Json}

theorem string_unique {s s' : String} (h : m = some (.string s)) (h' : m = some (.string s')) :
    s = s' :=
  string.inj (Option.some.inj (h.symm.trans h'))

theorem bool_unique {b b' : Bool} (h : m = some (.bool b)) (h' : m = some (.bool b')) : b = b' :=
  bool.inj (Option.some.inj (h.symm.trans h'))

theorem count_unique {n n' : Nat} (h : m = some (.number (.int n)))
    (h' : m = some (.number (.int n'))) : n = n' := by
  have same := number.inj (Option.some.inj (h.symm.trans h'))
  exact Int.ofNat.inj (Number.int.inj same)

theorem strings_unique {ss ss' : List String} (h : m = some (.array (ss.map .string)))
    (h' : m = some (.array (ss'.map .string))) : ss = ss' := by
  have same := array.inj (Option.some.inj (h.symm.trans h'))
  exact List.map_injective_iff.mpr (fun _ _ => string.inj) same

end Json

open Json (bool_unique count_unique string_unique strings_unique)

theorem Directives.ShownBy.unique {d e : Directives} {j : Json} (h : d.ShownBy j)
    (h' : e.ShownBy j) : d = e := by
  have http := string_unique h.httpName h'.httpName
  have name := string_unique h.jsonName h'.jsonName
  have readOnly := bool_unique h.jsonReadOnly h'.jsonReadOnly
  have default := string_unique h.jsonDefault h'.jsonDefault
  have required := bool_unique h.jsonRequired h'.jsonRequired
  have context := strings_unique h.jsonContext h'.jsonContext
  have go := string_unique h.goName h'.goName
  cases d
  cases e
  exact Directives.mk.injEq .. ▸ ⟨http, name, readOnly, default, required, context, go⟩

theorem Row.ShownBy.problems_unique {r s : Row} {j : Json} (h : r.ShownBy j) (h' : s.ShownBy j) :
    r.problems = s.problems := by
  have here := h.problems
  have there := h'.problems
  by_cases none : r.problems = [] <;> by_cases none' : s.problems = []
  · rw [none, none']
  · rw [if_pos none] at here
    rw [if_neg none', here] at there
    cases there
  · rw [if_neg none] at here
    rw [if_pos none', here] at there
    cases there
  · rw [if_neg none] at here
    rw [if_neg none'] at there
    exact strings_unique here there

theorem Row.ShownBy.unique {r s : Row} {j : Json} (h : r.ShownBy j) (h' : s.ShownBy j) : r = s := by
  obtain ⟨v, found, shown⟩ := h.directives
  obtain ⟨v', found', shown'⟩ := h'.directives
  obtain rfl := Option.some.inj (found.symm.trans found')
  have path := string_unique h.path h'.path
  have kind := ConceptKind.label_inj (string_unique h.kind h'.kind)
  have annotations := strings_unique h.annotations h'.annotations
  have problems := h.problems_unique h'
  cases r
  cases s
  exact Row.mk.injEq .. ▸ ⟨path, kind, annotations, shown.unique shown', problems⟩

theorem Totals.ShownBy.unique {t u : Totals} {j : Json} (h : t.ShownBy j) (h' : u.ShownBy j) :
    t = u := by
  have concepts := count_unique h.concepts h'.concepts
  have annotated := count_unique h.annotated h'.annotated
  have problems := count_unique h.problems h'.problems
  cases t
  cases u
  exact Totals.mk.injEq .. ▸ ⟨concepts, annotated, problems⟩

/-- A value shows at most one report. -/
theorem Report.ShownBy.unique {r s : Report} {j : Json} (h : r.ShownBy j) (h' : s.ShownBy j) :
    r = s := by
  obtain ⟨vs, found, rows⟩ := h.rows
  obtain ⟨vs', found', rows'⟩ := h'.rows
  obtain ⟨v, held, totals⟩ := h.totals
  obtain ⟨v', held', totals'⟩ := h'.totals
  obtain rfl := Json.array.inj (Option.some.inj (found.symm.trans found'))
  obtain rfl := Option.some.inj (held.symm.trans held')
  have unique : Relator.LeftUnique Row.ShownBy := fun _ _ _ => Row.ShownBy.unique
  have same : r.rows = s.rows := List.left_unique_forall₂' unique rows rows'
  cases r
  cases s
  exact Report.mk.injEq .. ▸ ⟨same, totals.unique totals'⟩

theorem Json.printable_strings (texts : List String) (depth : Nat) :
    (Json.strings texts).Printable (depth + 1) :=
  Json.printable_list fun _ _ => trivial

theorem Json.printable_count {n : Nat} (h : n ≤ Json.Numeral.limit) (depth : Nat) :
    (Json.count n).Printable depth :=
  ⟨n, h, rfl⟩

theorem Directives.printable (d : Directives) (depth : Nat) : d.toJson.Printable (depth + 2) := by
  have distinct : ["http_name", "json_name", "json_read_only", "json_default", "json_required",
    "json_context", "go_name"].Nodup := by decide
  exact ⟨by omega, distinct, trivial, trivial, trivial, trivial, trivial,
    Json.printable_strings d.jsonContext depth, trivial, trivial⟩

theorem Row.printable (r : Row) (depth : Nat) : r.toJson.Printable (depth + 3) := by
  have annotations := Json.printable_strings r.annotations (depth + 1)
  have problems := Json.printable_strings r.problems (depth + 1)
  have directives := r.directives.printable depth
  unfold toJson
  cases r.problems.isEmpty with
  | true =>
    have distinct : ["path", "kind", "annotations", "directives"].Nodup := by decide
    exact ⟨by omega, distinct, trivial, trivial, annotations, directives, trivial⟩
  | false =>
    have distinct : ["path", "kind", "annotations", "directives", "problems"].Nodup := by decide
    exact ⟨by omega, distinct, trivial, trivial, annotations, directives, problems, trivial⟩

theorem Totals.printable {t : Totals} (h : t.Fit) (depth : Nat) :
    t.toJson.Printable (depth + 1) := by
  have distinct : ["concepts", "annotated", "problems"].Nodup := by decide
  exact ⟨by omega, distinct, Json.printable_count h.concepts depth,
    Json.printable_count h.annotated depth, Json.printable_count h.problems depth, trivial⟩

theorem Report.printable {r : Report} (h : r.totals.Fit) : r.toJson.Printable Json.maxDepth := by
  have distinct : ["concepts", "totals"].Nodup := by decide
  have rows : (Json.array (r.rows.map Row.toJson)).Printable 126 :=
    Json.printable_list fun row _ => row.printable 122
  exact ⟨by decide, distinct, rows, Totals.printable h 125, trivial⟩

/-- The text of a report is read as the document made for it. -/
theorem Report.read_jsonText {r : Report} (h : r.totals.Fit) :
    Json.read r.jsonText = .ok r.toJson :=
  Json.read_pretty (printable h) (.cons (by decide) _) (.blank (.inr (.inl rfl)) .nil)

/-- The text ends in a line end and is read as an object that shows the report, and no two reports
have the same text. -/
theorem Report.jsonText_lossless {r : Report} (h : r.totals.Fit) :
    (∃ cs, r.jsonText.toList = cs ++ ['\n']) ∧
    (∃ j, Json.read r.jsonText = .ok j ∧ r.ShownBy j) ∧
      ∀ s : Report, s.totals.Fit → s.jsonText = r.jsonText → s = r := by
  have read := read_jsonText h
  refine ⟨⟨_, String.toList_ofList⟩, ⟨_, read, r.shownBy_toJson⟩, ?_⟩
  intro s hs same
  have other := read_jsonText hs
  rw [same, read] at other
  have shown := s.shownBy_toJson
  rw [← Except.ok.inj other] at shown
  exact shown.unique r.shownBy_toJson

/-- A report with totals that do not fit its only row, and with texts that need escapes. -/
def Report.odd : Report :=
  ⟨[⟨"A.\"b\"\n", .value, ["json", "\\"], ⟨"é", "", true, "\x01", false, ["a", "b c"], "go"⟩,
    ["not a string"]⟩], ⟨18446744073709551615, 0, 7⟩⟩

theorem Report.jsonText_lossless_odd :
    odd.totals.Fit ∧ ∃ j, Json.read odd.jsonText = .ok j ∧ odd.ShownBy j := by
  have fit : odd.totals.Fit := ⟨by decide, by decide, by decide⟩
  exact ⟨fit, (jsonText_lossless fit).2.1⟩

end ModelDirectives
