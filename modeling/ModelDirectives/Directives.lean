import ModelDirectives.Lookup.Strict

namespace ModelDirectives

/-- The directives of one concept. The empty text, `false` and the empty list ask for nothing. -/
structure Directives where
  httpName : String
  jsonName : String
  jsonReadOnly : Bool
  jsonDefault : String
  jsonRequired : Bool
  jsonContext : List String
  goName : String
  deriving DecidableEq, Repr

namespace Directives

/-- The name that a concept should have in a target language: the value of any kind under `name`
in the annotation of the language. -/
def targetName {α : Type} [Annotated α] (concept : α) (language : String) : String :=
  Lookup.text concept language "name"

/-- The directives of a concept, each from the first annotation of its name. -/
def resolve {α : Type} [Annotated α] (concept : α) : Directives where
  httpName := Lookup.text concept "http" "name"
  jsonName := Lookup.string concept "json" "name"
  jsonReadOnly := Lookup.bool concept "json" "readOnly"
  jsonDefault := Lookup.string concept "json" "default"
  jsonRequired := Lookup.bool concept "json" "required"
  jsonContext := Lookup.context concept "json" "context"
  goName := targetName concept "go"

/-- A directive that accepts one kind of value only. -/
structure Rule where
  name : String
  parameter : String
  wantsBool : Bool
  deriving DecidableEq, Repr

/-- The directives that accept one kind of value only. -/
def rules : List Rule :=
  [⟨"json", "name", false⟩, ⟨"json", "readOnly", true⟩, ⟨"json", "default", false⟩,
    ⟨"json", "required", true⟩, ⟨"json", "context", false⟩]

/-- Why a concept breaks a rule, if it does. A directive that is not used breaks none. -/
def Rule.breach? {α : Type} [Annotated α] (concept : α) (r : Rule) : Option LookupError :=
  let outcome : Except LookupError Unit :=
    if r.wantsBool then (Lookup.Strict.bool concept r.name r.parameter).map fun _ => ()
    else (Lookup.Strict.string concept r.name r.parameter).map fun _ => ()
  match outcome with
  | .ok _ => none
  | .error e => if e.isAbsence then none else some e

/-- The directives of a concept whose value is of the wrong kind, in the order of the rules. -/
def breaches {α : Type} [Annotated α] (concept : α) : List LookupError :=
  rules.filterMap (Rule.breach? concept)

end Directives

end ModelDirectives
