import ModelDirectives.Decimal

namespace ModelDirectives

inductive Level where
  | warning
  | detail
  deriving DecidableEq, Repr

def Level.label : Level → String
  | .warning => "WARN"
  | .detail => "DEBUG"

/-- What is told along the way while a model is read and its directives are resolved. -/
inductive Notice where
  /-- An annotation stands behind another one of its name. -/
  | annotationRepeated (owner name : String)
  /-- A directive of a concept cannot be read. -/
  | problem (path text : String)
  | loaded (types : Nat)
  | resolved (concepts annotated problems : Nat)
  deriving DecidableEq, Repr

namespace Notice

def level : Notice → Level
  | .annotationRepeated .. | .problem .. => .warning
  | .loaded .. | .resolved .. => .detail

def message : Notice → String
  | .annotationRepeated owner name =>
    owner ++ " carries annotation @" ++ name ++ " more than once; only the first is used"
  | .problem path text => path ++ ": " ++ text
  | .loaded types => "loaded model with " ++ Decimal.text types ++ " types"
  | .resolved concepts annotated problems =>
    "resolved " ++ Decimal.text concepts ++ " concepts (" ++ Decimal.text annotated ++
      " annotated, " ++ Decimal.text problems ++ " problems)"

def line (n : Notice) : String :=
  n.level.label ++ " " ++ n.message

end Notice

end ModelDirectives
