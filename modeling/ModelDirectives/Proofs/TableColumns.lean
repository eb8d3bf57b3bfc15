import Mathlib.Data.String.Basic
import ModelDirectives.Proofs.LineTexts
import ModelDirectives.Proofs.Paths
import ModelDirectives.Report.Table

namespace ModelDirectives

namespace Text

def Ascii (s : String) : Prop :=
  ∀ c ∈ s.toList, c.toNat < 128

theorem utf8Size_of_ascii {c : Char} (h : c.toNat < 128) : c.utf8Size = 1 :=
  Char.utf8Size_eq_one_iff.mpr (UInt32.le_iff_toNat_le.mpr (Nat.le_of_lt_succ h))

/-- No text has more characters than bytes. -/
theorem length_le_utf8ByteSize (s : String) : s.length ≤ s.utf8ByteSize := by
  rw [← String.length_toList, ← String.utf8Len_toList]
  induction s.toList with
  | nil => exact Nat.le_refl 0
  | cons c cs ih =>
    have one := c.utf8Size_pos
    rw [List.length_cons, String.utf8Len_cons]
    omega

theorem utf8ByteSize_of_ascii {s : String} (h : Ascii s) : s.utf8ByteSize = s.length := by
  unfold Ascii at h
  rw [← String.length_toList, ← String.utf8Len_toList]
  revert h
  induction s.toList with
  | nil => exact fun _ => rfl
  | cons c cs ih =>
    intro h
    obtain ⟨here, later⟩ := List.forall_mem_cons.mp h
    rw [List.length_cons, String.utf8Len_cons, ih later, utf8Size_of_ascii here]

theorem toList_blanks (n : Nat) : (blanks n).toList = List.replicate n ' ' :=
  String.toList_ofList

theorem blanks_append (m n : Nat) : blanks m ++ blanks n = blanks (m + n) := by
  rw [blanks, blanks, blanks, ← String.ofList_append, List.replicate_append_replicate]

/-- A line of two texts. It starts with the first one, whole and followed by at least two blanks;
from a given character on it is the second one up to the line end. -/
structure InColumns (offset : Nat) (left right line : String) : Prop where
  whole : left.toList <+: line.toList
  room : left.length + 2 ≤ offset
  gap : ∀ i, left.length ≤ i → i < offset → line.toList[i]? = some ' '
  behind : line.toList.drop offset = right.toList ++ ['\n']

theorem inColumns_of_gap {left : String} {offset n : Nat} (fits : left.length + n = offset)
    (two : 2 ≤ n) (right : String) :
    InColumns offset left right (left ++ blanks n ++ right ++ "\n") := by
  have line : (left ++ blanks n ++ right ++ "\n").toList =
      left.toList ++ (List.replicate n ' ' ++ (right.toList ++ ['\n'])) := by
    simp [toList_blanks]
  have front : left.toList.length = left.length := String.length_toList
  constructor
  · rw [line]
    exact List.prefix_append ..
  · omega
  · intro i low high
    rw [line, List.getElem?_append_right (by omega), List.getElem?_append_left (by simp; omega),
      List.getElem?_replicate_of_lt (by omega)]
  · have apart : offset = (left.toList ++ List.replicate n ' ').length := by
      rw [List.length_append, front, List.length_replicate, fits]
    rw [line, ← List.append_assoc, apart, List.drop_left]

end Text

open Text (Ascii InColumns blanks blanks_append inColumns_of_gap)

namespace Row

/-- The line of a concept and behind it those of its problems. -/
def lines (width : Nat) (r : Row) : List String :=
  r.line width :: r.problems.map (problemLine width)

theorem block_eq_join (width : Nat) (r : Row) : r.block width = String.join (r.lines width) := by
  rw [lines, String.join_cons, block]

variable {width : Nat} {r : Row}

theorem line_eq (width : Nat) (r : Row) : r.line width =
    r.path ++ blanks (width - r.path.length + 2) ++ r.directives.summary ++ "\n" := by
  have two : "  " = blanks 2 := rfl
  rw [line, Text.padded, two, @String.append_assoc r.path, blanks_append]

theorem line_inColumns (fits : r.path.length ≤ width) :
    InColumns (width + 2) r.path r.directives.summary (r.line width) := by
  rw [line_eq]
  exact inColumns_of_gap (by omega) (by omega) _

theorem problemLine_eq (width : Nat) (problem : String) :
    problemLine width problem = blanks (width + 4) ++ ("! " ++ problem) ++ "\n" := by
  have mark : "    ! " = blanks 4 ++ "! " := rfl
  rw [problemLine, mark, ← String.append_assoc, blanks_append, @String.append_assoc (blanks _)]

theorem problemLine_inColumns (width : Nat) (problem : String) :
    InColumns (width + 4) "" ("! " ++ problem) (problemLine width problem) := by
  have fits : "".length + (width + 4) = width + 4 := Nat.zero_add _
  have line := inColumns_of_gap fits (by omega) ("! " ++ problem)
  rwa [String.empty_append, ← problemLine_eq] at line

end Row

namespace Report

/-- The size in bytes of the longest path, which is zero when there is none. -/
structure LongestPath (r : Report) (n : Nat) : Prop where
  bound : ∀ row ∈ r.rows, row.path.utf8ByteSize ≤ n
  reached : r.rows ≠ [] → ∃ row ∈ r.rows, row.path.utf8ByteSize = n
  empty : r.rows = [] → n = 0

/-- A text of two columns: for every concept a line with its path and its directives, directly
behind it one for each of its problems, and the totals below. -/
structure Aligned (r : Report) (width : Nat) (text : String) : Prop where
  lines : text = String.join (r.rows.flatMap (Row.lines width)) ++ "\n" ++ r.totals.line
  concepts : ∀ row ∈ r.rows,
    InColumns (width + 2) row.path row.directives.summary (row.line width)
  problems : ∀ row ∈ r.rows, ∀ problem ∈ row.problems,
    InColumns (width + 4) "" ("! " ++ problem) (Row.problemLine width problem)

/-- A width that no column for the paths can fall short of, with a path that leaves no room. -/
structure Tight (r : Report) (width : Nat) : Prop where
  least : ∀ n, (∀ row ∈ r.rows, row.path.length ≤ n) → width ≤ n
  filled : ∃ row ∈ r.rows, row.line width = row.path ++ "  " ++ row.directives.summary ++ "\n"

variable {r : Report}

/-- The first column is as wide as the longest path has bytes. -/
theorem longestPath_width (r : Report) : r.LongestPath r.width := by
  have width : r.width = max 0 ((r.rows.map fun row => row.path.utf8ByteSize).max?.getD 0) :=
    List.foldl_max
  rw [width, Nat.zero_max]
  cases sizes : (r.rows.map fun row => row.path.utf8ByteSize).max? with
  | none =>
    have empty : r.rows = [] := List.map_eq_nil_iff.mp (List.max?_eq_none_iff.mp sizes)
    exact ⟨by simp [empty], fun some => absurd empty some, fun _ => rfl⟩
  | some n =>
    obtain ⟨reached, bound⟩ := List.max?_eq_some_iff.mp sizes
    refine ⟨List.forall_mem_map.mp bound, fun _ => List.mem_map.mp reached, fun empty => ?_⟩
    simp [empty] at reached

theorem length_path_le_width {row : Row} (h : row ∈ r.rows) : row.path.length ≤ r.width :=
  (Text.length_le_utf8ByteSize row.path).trans (r.longestPath_width.bound row h)

theorem table_eq_join (r : Report) :
    r.table = String.join (r.rows.flatMap (Row.lines r.width)) ++ "\n" ++ r.totals.line := by
  have blocks : String.join (r.rows.map (Row.block r.width)) =
      String.join (r.rows.flatMap (Row.lines r.width)) := by
    rw [← String.toList_inj, String.toList_join, String.toList_join, List.flatMap_map,
      List.flatMap_assoc]
    refine List.flatMap_congr fun row _ => ?_
    rw [Row.block_eq_join, String.toList_join]
  rw [table, blocks]

/-- Every line of the table keeps to the columns. -/
theorem aligned_table (r : Report) : r.Aligned r.width r.table where
  lines := r.table_eq_join
  concepts _ h := Row.line_inColumns (length_path_le_width h)
  problems _ _ problem _ := Row.problemLine_inColumns r.width problem

/-- Where every character of a path is one byte, the longest path fills the first column. -/
theorem tight_of_ascii (some : r.rows ≠ []) (ascii : ∀ row ∈ r.rows, Ascii row.path) :
    r.Tight r.width := by
  obtain ⟨row, hr, size⟩ := r.longestPath_width.reached some
  have length : row.path.length = r.width := by
    rw [← size, Text.utf8ByteSize_of_ascii (ascii row hr)]
  refine ⟨fun n fits => length ▸ fits row hr, row, hr, ?_⟩
  rw [Row.line_eq, length, Nat.sub_self]
  rfl

end Report

theorem IsIdentifier.ascii {name : String} (h : IsIdentifier name) : Ascii name :=
  fun c hc => (h.code_bounds c hc).2

theorem ascii_memberPath {owner name : String} (ho : Ascii owner) (hn : Ascii name) :
    Ascii (memberPath owner name) := by
  unfold Text.Ascii at *
  rw [memberPath_toList, List.forall_mem_append, List.forall_mem_cons]
  exact ⟨ho, by decide, hn⟩

namespace Model

variable {m : Model}

theorem rows_ne_nil (h : m.WellFormed) : (Report.ofModel m).rows ≠ [] := by
  obtain ⟨t, ts, types⟩ := List.exists_cons_of_ne_nil h.nonempty
  simp [Report.ofModel, concepts, types, TypeDef.concepts]

/-- Paths are made of identifiers. -/
theorem ascii_paths (h : m.WellFormed) : ∀ row ∈ (Report.ofModel m).rows, Ascii row.path := by
  intro row hr
  obtain ⟨c, hc, rfl⟩ := List.mem_map.mp hr
  obtain ⟨t, ht, hc⟩ := List.mem_flatMap.mp hc
  have wellFormed := h.types t ht
  have path : c.path ∈ t.concepts.map (·.path) := List.mem_map_of_mem hc
  show Ascii c.path
  rcases TypeDef.path_mem_iff.mp path with own | ⟨name, hn, member⟩
  · rw [own]
    exact wellFormed.name.ascii
  · rw [member]
    exact ascii_memberPath wellFormed.name.ascii (wellFormed.members name hn).ascii

end Model

/-- The table of any report has two columns that line up, however long its paths are in characters
and in bytes. Where all paths are ASCII, and so for every document that is accepted, the column of
paths is as narrow as it can be. -/
theorem Report.columns_line_up :
    (∀ r : Report, r.LongestPath r.width ∧ r.Aligned r.width r.table ∧
      (r.rows ≠ [] → (∀ row ∈ r.rows, Ascii row.path) → r.Tight r.width)) ∧
    ∀ (d : Document) (m : Model), d.KeysDistinct → d.check.verdict = .ok m →
      (ofModel m).Tight (ofModel m).width := by
  refine ⟨fun r => ⟨r.longestPath_width, r.aligned_table, tight_of_ascii⟩, ?_⟩
  intro d m distinct accepted
  have wellFormed := Document.wellFormed_of_check distinct accepted
  exact tight_of_ascii (Model.rows_ne_nil wellFormed) (Model.ascii_paths wellFormed)

/-- The path with fewer characters has more bytes. -/
def Report.accented : Report :=
  ⟨[⟨"éé", .type, [], ⟨"", "", false, "", false, [], ""⟩, ["bad"]⟩,
    ⟨"A.b", .attribute, ["json"], ⟨"", "", false, "", true, [], ""⟩, []⟩],
    ⟨18446744073709551615, 1, 1⟩⟩

theorem Report.columns_line_up_accented :
    accented.width = 4 ∧ accented.Aligned 4 accented.table ∧
      accented.table = "éé    -\n        ! bad\nA.b   required\n\n" ++
        "18446744073709551615 concepts, 1 annotated, 1 problem\n" ∧
      Document.twoTypes.KeysDistinct ∧
      Document.twoTypes.check.verdict = .ok Document.twoTypes.image ∧
      (ofModel Document.twoTypes.image).Tight 13 := by
  have distinct : Document.twoTypes.KeysDistinct := by decide
  have accepted : Document.twoTypes.check.verdict = .ok Document.twoTypes.image := rfl
  obtain ⟨any, ofDocument⟩ := columns_line_up
  exact ⟨rfl, (any accented).2.1, by decide, distinct, accepted, ofDocument _ _ distinct accepted⟩

end ModelDirectives
