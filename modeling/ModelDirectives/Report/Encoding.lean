import ModelDirectives.Json.Pretty
import ModelDirectives.Report

namespace ModelDirectives

def Json.strings (texts : List String) : Json :=
  .array (texts.map .string)

def Json.count (n : Nat) : Json :=
  .number (.int n)

def Directives.toJson (d : Directives) : Json :=
  .object [("http_name", .string d.httpName), ("json_name", .string d.jsonName),
    ("json_read_only", .bool d.jsonReadOnly), ("json_default", .string d.jsonDefault),
    ("json_required", .bool d.jsonRequired), ("json_context", .strings d.jsonContext),
    ("go_name", .string d.goName)]

/-- A row leaves its problems out when there are none. -/
def Row.toJson (r : Row) : Json :=
  .object ([("path", .string r.path), ("kind", .string r.kind.label),
    ("annotations", .strings r.annotations), ("directives", r.directives.toJson)] ++
      if r.problems.isEmpty then [] else [("problems", .strings r.problems)])

def Totals.toJson (t : Totals) : Json :=
  .object [("concepts", .count t.concepts), ("annotated", .count t.annotated),
    ("problems", .count t.problems)]

namespace Report

def toJson (r : Report) : Json :=
  .object [("concepts", .array (r.rows.map Row.toJson)), ("totals", r.totals.toJson)]

/-- The document, with a line end behind it. -/
def jsonText (r : Report) : String :=
  String.ofList (r.toJson.pretty 0 ++ ['\n'])

end Report

end ModelDirectives
