import ModelDirectives.Directives
import ModelDirectives.Notice

namespace ModelDirectives

structure Row where
  path : String
  kind : ConceptKind
  annotations : List String
  directives : Directives
  problems : List String
  deriving DecidableEq, Repr

structure Totals where
  concepts : Nat
  annotated : Nat
  problems : Nat
  deriving DecidableEq, Repr

/-- Every directive resolved for every concept, in the order of the model. -/
structure Report where
  rows : List Row
  totals : Totals
  deriving DecidableEq, Repr

/-- The row of a concept; its problems are the directives that cannot be read. -/
def Row.ofConcept (c : Concept) : Row where
  path := c.path
  kind := c.kind
  annotations := c.annotations.map (·.name)
  directives := Directives.resolve c
  problems := (Directives.breaches c).map LookupError.message

def Totals.ofRows (rows : List Row) : Totals where
  concepts := rows.length
  annotated := (rows.filter fun r => !r.annotations.isEmpty).length
  problems := (rows.flatMap fun r => r.problems).length

namespace Report

def ofModel (m : Model) : Report :=
  let rows := m.concepts.map Row.ofConcept
  ⟨rows, Totals.ofRows rows⟩

/-- Whether some directive cannot be read, going by the totals. -/
def hasProblems (r : Report) : Bool :=
  0 < r.totals.problems

/-- What is told while the report is made: its problems and then its totals. -/
def notices (r : Report) : List Notice :=
  (r.rows.flatMap fun row => row.problems.map (Notice.problem row.path)) ++
    [.resolved r.totals.concepts r.totals.annotated r.totals.problems]

end Report

end ModelDirectives
