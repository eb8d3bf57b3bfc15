import ModelDirectives.Proofs.DiagnosticLines
import ModelDirectives.Proofs.Summaries
import ModelDirectives.Proofs.TableColumns

namespace ModelDirectives

namespace Text

/-- The number of line feeds in a text. -/
def breaks (s : String) : Nat :=
  s.toList.count '\n'

/-- A text with a line feed at its end and nowhere else. -/
def IsLine (s : String) : Prop :=
  ∃ cs, '\n' ∉ cs ∧ s.toList = cs ++ ['\n']

theorem breaks_eq_zero_iff {s : String} : breaks s = 0 ↔ '\n' ∉ s.toList :=
  List.count_eq_zero

@[simp]
theorem breaks_append (s t : String) : breaks (s ++ t) = breaks s + breaks t := by
  rw [breaks, String.toList_append, List.count_append]
  rfl

theorem breaks_join (ss : List String) : breaks (String.join ss) = (ss.map breaks).sum := by
  rw [breaks, String.toList_join, List.count_flatMap]
  rfl

theorem breaks_of_oneLine {s : String} (h : OneLine s.toList) : breaks s = 0 :=
  breaks_eq_zero_iff.mpr fun feed => absurd (h _ feed) (by decide)

theorem breaks_blanks (n : Nat) : breaks (blanks n) = 0 := by
  rw [breaks, toList_blanks, List.count_replicate]
  rfl

theorem breaks_newline : breaks "\n" = 1 :=
  rfl

theorem isLine_append_newline {s : String} (h : breaks s = 0) : IsLine (s ++ "\n") :=
  ⟨s.toList, breaks_eq_zero_iff.mp h, String.toList_append⟩

theorem IsLine.breaks {s : String} (h : IsLine s) : breaks s = 1 := by
  obtain ⟨cs, free, eq⟩ := h
  rw [Text.breaks, eq, List.count_append, List.count_eq_zero.mpr free]
  rfl

theorem sum_breaks_eq_zero_iff {ss : List String} :
    (ss.map breaks).sum = 0 ↔ ∀ s ∈ ss, '\n' ∉ s.toList := by
  rw [List.sum_eq_zero_iff_forall_eq_nat, List.forall_mem_map]
  exact forall₂_congr fun _ _ => breaks_eq_zero_iff

end Text

open Text (IsLine breaks breaks_append breaks_blanks breaks_join breaks_newline breaks_of_oneLine
  isLine_append_newline)

/-- Whether a column is left out or not, a character that its keyword does not hold stands in it as
often as in what is written for its value. -/
theorem Column.count_text_asked {α : Type} [DecidableEq α] {unset : α} {spell : α → List Char}
    {k : List Char} {c : Char} (blank : c ≠ ' ') (foreign : c ∉ k) (idle : c ∉ spell unset)
    (x : α) :
    (text ⟨k, asked unset spell x⟩).count c = (spell x).count c := by
  unfold asked
  split
  next h => rw [h, List.count_eq_zero.mpr idle, text, List.count_nil]
  next =>
    rw [text, List.count_cons_of_ne blank.symm, List.count_append, List.count_eq_zero.mpr foreign,
      Nat.zero_add]

namespace Directives

open Column (count_text_asked line)

/-- The texts that stand in a summary as they are. The default does not, for it is quoted. -/
def verbatim (d : Directives) : List String :=
  d.httpName :: d.jsonName :: (d.jsonContext ++ [d.goName])

theorem count_contextBody (tokens : List String) :
    (contextBody tokens).count '\n' = (tokens.map breaks).sum := by
  rw [contextBody, List.count_append, count_intercalate (by decide)]
  rfl

theorem count_columns (d : Directives) :
    (line d.columns).count '\n' = (d.verbatim.map breaks).sum := by
  have blank : '\n' ≠ ' ' := by decide
  have default : (Text.quoted d.jsonDefault).toList.count '\n' = 0 :=
    breaks_of_oneLine (Text.oneLine_quoted d.jsonDefault)
  simp only [line, columns, List.flatMap_cons, List.flatMap_nil, List.append_nil, List.count_append]
  -- Neither a keyword nor what is written for a value that is not set holds a line feed.
  simp (disch := decide) only [count_text_asked blank, default, count_contextBody]
  simp [verbatim, breaks]

/-- The line feeds in a summary are those of the names and contexts in it; a default is quoted. -/
theorem breaks_summary (d : Directives) : breaks d.summary = (d.verbatim.map breaks).sum := by
  by_cases idle : d.parts = []
  · rw [parts_eq_nil_iff.mp idle]
    rfl
  · have blank : ' ' ≠ '\n' := by decide
    rw [← count_columns, line_columns idle, List.count_cons_of_ne blank]
    rfl

end Directives

namespace Row

variable {r : Row}

/-- The path and the problems of a row hold no line feed. -/
structure Unbroken (r : Row) : Prop where
  path : breaks r.path = 0
  problems : ∀ problem ∈ r.problems, breaks problem = 0

theorem breaks_line (h : r.Unbroken) (width : Nat) :
    breaks (r.line width) = (r.directives.verbatim.map breaks).sum + 1 := by
  rw [line_eq, breaks_append, breaks_append, breaks_append, h.path, breaks_blanks, breaks_newline,
    r.directives.breaks_summary]
  omega

theorem problemLine_isLine (width : Nat) {problem : String} (h : breaks problem = 0) :
    IsLine (problemLine width problem) := by
  rw [problemLine_eq]
  apply isLine_append_newline
  rw [breaks_append, breaks_append, breaks_blanks, h]
  rfl

theorem sum_breaks_lines (h : r.Unbroken) (width : Nat) : ((r.lines width).map breaks).sum =
    (r.directives.verbatim.map breaks).sum + 1 + r.problems.length := by
  have ones : (r.problems.map (problemLine width)).map breaks = r.problems.map fun _ => 1 := by
    rw [List.map_map]
    exact List.map_congr_left fun p hp => (problemLine_isLine width (h.problems p hp)).breaks
  rw [lines, List.map_cons, List.sum_cons, breaks_line h, ones, List.map_const',
    List.sum_replicate_nat, Nat.mul_one]

theorem line_isLine (h : r.Unbroken) (width : Nat)
    (plain : ∀ s ∈ r.directives.verbatim, '\n' ∉ s.toList) : IsLine (r.line width) := by
  have summary : breaks r.directives.summary = 0 := by
    rw [r.directives.breaks_summary, Text.sum_breaks_eq_zero_iff.mpr plain]
  rw [line_eq]
  apply isLine_append_newline
  rw [breaks_append, breaks_append, h.path, breaks_blanks, summary]

theorem lines_isLine (h : r.Unbroken) (width : Nat)
    (plain : ∀ s ∈ r.directives.verbatim, '\n' ∉ s.toList) :
    ∀ line ∈ r.lines width, IsLine line := by
  rw [lines, List.forall_mem_cons, List.forall_mem_map]
  exact ⟨line_isLine h width plain, fun p hp => problemLine_isLine width (h.problems p hp)⟩

/-- The lines for a concept: one that starts with its path, and one for each of its problems. -/
inductive Divided (r : Row) : List String → Prop
  | intro {first : String} {others : List String} (path : r.path.toList <+: first.toList)
      (problems : List.Forall₂
        (fun problem line => ∃ n, line = Text.blanks n ++ ("! " ++ problem) ++ "\n")
        r.problems others) : Divided r (first :: others)

theorem divided_lines {width : Nat} (fits : r.path.length ≤ width) : r.Divided (r.lines width) := by
  refine .intro (line_inColumns fits).whole ?_
  rw [List.forall₂_map_right_iff, List.forall₂_same]
  exact fun problem _ => ⟨width + 4, problemLine_eq width problem⟩

end Row

theorem Totals.line_isLine (t : Totals) : IsLine t.line := by
  have number : ∀ n, breaks (Decimal.text n) = 0 := fun n =>
    breaks_of_oneLine (Decimal.oneLine_text n)
  have counted : ∀ n (noun : String), breaks noun = 0 → breaks (counted n noun) = 0 := by
    intro n noun plain
    have blank : breaks " " = 0 := rfl
    have plural : breaks "s" = 0 := rfl
    unfold Totals.counted
    split <;> simp [number, plain, blank, plural]
  unfold line
  apply isLine_append_newline
  rw [breaks_append, breaks_append, breaks_append, breaks_append, counted _ "concept" rfl,
    counted _ "problem" rfl, number]
  rfl

namespace Report

/-- The texts of all concepts that stand in the table as they are. -/
def verbatim (r : Report) : List String :=
  r.rows.flatMap fun row => row.directives.verbatim

/-- The text has one line for each concept and one for each problem, an empty line and one with the
totals. It is the lines of the concepts in their order, directly behind each those of its problems,
and then the other two. -/
structure Divided (r : Report) (text : String) : Prop where
  size : breaks text = r.totals.concepts + r.totals.problems + 2
  lines : ∃ blocks : List (List String), List.Forall₂ Row.Divided r.rows blocks ∧
    (∀ line ∈ blocks.flatten ++ ["\n", r.totals.line], IsLine line) ∧
    text = String.join (blocks.flatten ++ ["\n", r.totals.line])

variable {r : Report}

theorem sum_breaks_lines {rows : List Row} (h : ∀ row ∈ rows, row.Unbroken) (width : Nat) :
    ((rows.flatMap (Row.lines width)).map breaks).sum = rows.length +
      (rows.flatMap fun row => row.problems).length +
      ((rows.flatMap fun row => row.directives.verbatim).map breaks).sum := by
  induction rows with
  | nil => rfl
  | cons row rows ih =>
    obtain ⟨here, later⟩ := List.forall_mem_cons.mp h
    simp only [List.flatMap_cons, List.map_append, List.sum_append, List.length_append,
      List.length_cons, Row.sum_breaks_lines here width, ih later]
    omega

/-- The number of lines of a table, whatever the names in it hold. -/
theorem breaks_table (h : ∀ row ∈ r.rows, row.Unbroken) : breaks r.table = r.rows.length +
    (r.rows.flatMap fun row => row.problems).length + 2 + (r.verbatim.map breaks).sum := by
  rw [table_eq_join, breaks_append, breaks_append, breaks_join, sum_breaks_lines h, breaks_newline,
    r.totals.line_isLine.breaks, verbatim]
  omega

theorem divided_of_plain (h : ∀ row ∈ r.rows, row.Unbroken)
    (size : breaks r.table = r.totals.concepts + r.totals.problems + 2)
    (plain : ∀ s ∈ r.verbatim, '\n' ∉ s.toList) : r.Divided r.table := by
  have plainRows := List.forall_mem_flatMap.mp plain
  have empty : IsLine "\n" := @isLine_append_newline "" rfl
  have flat : (r.rows.map (Row.lines r.width)).flatten = r.rows.flatMap (Row.lines r.width) :=
    List.flatMap_def.symm
  refine ⟨size, r.rows.map (Row.lines r.width), ?_, ?_, ?_⟩
  · rw [List.forall₂_map_right_iff, List.forall₂_same]
    exact fun row hr => Row.divided_lines (length_path_le_width hr)
  · rw [flat, List.forall_mem_append, List.forall_mem_flatMap]
    refine ⟨fun row hr => Row.lines_isLine (h row hr) r.width (plainRows row hr), ?_⟩
    exact List.forall_mem_cons.mpr ⟨empty, List.forall_mem_singleton.mpr r.totals.line_isLine⟩
  · rw [flat, table_eq_join, String.join_append, String.append_assoc]
    simp

/-- Problems keep to a line, and so do the paths of accepted documents. -/
theorem unbroken_rows {m : Model} (paths : ∀ c ∈ m.concepts, OneLine c.path.toList) :
    ∀ row ∈ (ofModel m).rows, row.Unbroken := by
  intro row hr
  refine ⟨?_, fun problem hp => breaks_of_oneLine (oneLine_problem hr hp)⟩
  obtain ⟨c, hc, rfl⟩ := List.mem_map.mp hr
  exact breaks_of_oneLine (paths c hc)

end Report

namespace Document

/-- The table for a document that is accepted has a line for each concept, one for each problem and
two more, and one for every line feed in a name or a context of some concept. It is divided into the
lines of concepts and problems exactly when there is no such line feed; a default may hold any. -/
theorem table_divided_iff {d : Document} {m : Model} (accepted : d.check.verdict = .ok m) :
    breaks (Report.ofModel m).table = (Report.ofModel m).totals.concepts +
        (Report.ofModel m).totals.problems + 2 + ((Report.ofModel m).verbatim.map breaks).sum ∧
      ((Report.ofModel m).Divided (Report.ofModel m).table ↔
        ∀ s ∈ (Report.ofModel m).verbatim, '\n' ∉ s.toList) := by
  have unbroken := Report.unbroken_rows (oneLine_path_of_accepted accepted)
  have size := Report.breaks_table unbroken
  refine ⟨size, fun divided => ?_, fun plain => ?_⟩
  · have exact : breaks (Report.ofModel m).table = (Report.ofModel m).rows.length +
        ((Report.ofModel m).rows.flatMap fun row => row.problems).length + 2 := divided.size
    exact Text.sum_breaks_eq_zero_iff.mp (by omega)
  · have none := Text.sum_breaks_eq_zero_iff.mpr plain
    rw [none] at size
    exact Report.divided_of_plain unbroken size plain

/-- The name for HTTP has two lines. -/
def brokenName : Document :=
  ⟨[⟨"A", .classType, [⟨"http", [("name", .string "a\nb")]⟩], [], [], []⟩]⟩

theorem table_of_brokenName :
    brokenName.KeysDistinct ∧ brokenName.check.verdict = .ok brokenName.image ∧
      (∀ row ∈ (Report.ofModel brokenName.image).rows, row.path.utf8ByteSize ≤ 65535) ∧
      (Report.ofModel brokenName.image).table =
        "A  http=a\nb\n\n1 concept, 1 annotated, 0 problems\n" ∧
      ¬(Report.ofModel brokenName.image).Divided (Report.ofModel brokenName.image).table := by
  refine ⟨by decide, rfl, by decide, by decide, fun divided => ?_⟩
  exact absurd divided.size (by decide)

/-- The default has two lines, and the name is of the wrong kind. -/
def brokenDefault : Document :=
  ⟨[⟨"A", .classType, [⟨"http", [("name", .string "a")]⟩], [⟨"b", "String",
    [⟨"json", [("default", .string "x\ny"), ("name", .bool true)]⟩]⟩], [], []⟩]⟩

theorem table_divided_iff_brokenDefault :
    brokenDefault.check.verdict = .ok brokenDefault.image ∧
      (Report.ofModel brokenDefault.image).table = "A    http=a\nA.b  default=\"x\\ny\"\n" ++
        "       ! parameter \x60name\x60 of annotation \x60json\x60 is a bool, expected string\n" ++
        "\n2 concepts, 2 annotated, 1 problem\n" ∧
      (Report.ofModel brokenDefault.image).Divided (Report.ofModel brokenDefault.image).table := by
  have accepted : brokenDefault.check.verdict = .ok brokenDefault.image := rfl
  exact ⟨accepted, by decide, (table_divided_iff accepted).2.mpr (by decide)⟩

end Document

end ModelDirectives
