import ModelDirectives.Report
import ModelDirectives.Text.Blank
import ModelDirectives.Text.Quoted

namespace ModelDirectives

namespace Directives

/-- The directives that ask for something, in words. -/
def parts (d : Directives) : List String :=
  (if d.httpName = "" then [] else ["http=" ++ d.httpName]) ++
    (if d.jsonName = "" then [] else ["json=" ++ d.jsonName]) ++
    (if d.jsonRequired then ["required"] else []) ++
    (if d.jsonReadOnly then ["readOnly"] else []) ++
    (if d.jsonDefault = "" then [] else ["default=" ++ Text.quoted d.jsonDefault]) ++
    (if d.jsonContext = [] then [] else ["context=[" ++ ",".intercalate d.jsonContext ++ "]"]) ++
    (if d.goName = "" then [] else ["go=" ++ d.goName])

/-- The directives in one line; a dash when they ask for nothing. -/
def summary (d : Directives) : String :=
  if d.parts = [] then "-" else " ".intercalate d.parts

end Directives

namespace Row

def line (width : Nat) (r : Row) : String :=
  Text.padded width r.path ++ "  " ++ r.directives.summary ++ "\n"

def problemLine (width : Nat) (problem : String) : String :=
  Text.blanks width ++ "    ! " ++ problem ++ "\n"

def block (width : Nat) (r : Row) : String :=
  r.line width ++ String.join (r.problems.map (problemLine width))

end Row

namespace Totals

/-- A number of things; one of them stands in the singular. -/
def counted (n : Nat) (noun : String) : String :=
  Decimal.text n ++ " " ++ (if n = 1 then noun else noun ++ "s")

def line (t : Totals) : String :=
  counted t.concepts "concept" ++ ", " ++ Decimal.text t.annotated ++ " annotated, " ++
    counted t.problems "problem" ++ "\n"

end Totals

namespace Report

/-- The width of the column of paths: the size in bytes of the longest one. -/
def width (r : Report) : Nat :=
  (r.rows.map fun row => row.path.utf8ByteSize).foldl max 0

/-- One line for each concept and one for each of its problems, all with their texts in the same
column, and the totals below. -/
def table (r : Report) : String :=
  String.join (r.rows.map (Row.block r.width)) ++ "\n" ++ r.totals.line

end Report

end ModelDirectives
