import ModelDirectives.Json.Skip

namespace ModelDirectives.Json

/-- A field of a record, which keeps its default when it is not required and not written. -/
structure Field (ρ : Type) where
  label : String
  required : Bool
  /-- Reads the value of the field and tells how it changes a record. -/
  read : Nat → Reader (ρ → ρ)

/-- How records of type `ρ` are written: as an object, with the fields in any order and among
members of other names, or as a list of the fields in order, of which a last few may be left out.
The blank record holds the defaults. -/
structure Layout (ρ : Type) where
  title : String
  fields : List (Field ρ)
  blank : ρ

namespace Field

variable {ρ α : Type}

/-- A field that has to be written. -/
def mandatory (label : String) (read : Nat → Reader α) (store : α → ρ → ρ) : Field ρ where
  label := label
  required := true
  read := fun depth ts => do
    let (x, rest) ← read depth ts
    .ok (store x, rest)

/-- A field that may be left out. -/
def optional (label : String) (read : Nat → Reader α) (store : α → ρ → ρ) : Field ρ where
  label := label
  required := false
  read := fun depth ts => do
    let (x, rest) ← read depth ts
    .ok (store x, rest)

end Field

namespace Layout

open Reader (nextItem nextKey colon skip)

variable {ρ : Type}

def field? (l : Layout ρ) (label : String) : Option (Field ρ) :=
  l.fields.find? (·.label = label)

/-- The first required field that is not among the labels seen. -/
def missing? (l : Layout ρ) (seen : List String) : Option (Field ρ) :=
  l.fields.find? fun f => f.required && !seen.contains f.label

/-- What is asked for where a record is to stand. -/
def expected (l : Layout ρ) : String :=
  "struct " ++ l.title

/-- What is asked for where a record is to stand as a list. -/
def expectedLength (l : Layout ρ) : String :=
  let n := l.fields.length
  l.expected ++ " with " ++ Decimal.text n ++ (if n = 1 then " element" else " elements")

/-- The members of a record from behind the one last read to the end of the object, in at most as
many steps as there are tokens in the bound. -/
def fromMembers (l : Layout ρ) (depth : Nat) : List Token → List String → Bool → ρ → Reader ρ
  | [], _, _, _, _ => .error .endInObject
  | _ :: bound, seen, first, r, ts => do
    match ← nextKey first ts with
    | .done rest =>
      match l.missing? seen with
      | some f => .error (.fieldMissing f.label)
      | none => .ok (r, rest)
    | .more k rest =>
      match l.field? k with
      | none => fromMembers l depth bound seen false r (← skip (← colon rest))
      | some f =>
        if seen.contains k then .error (.fieldRepeated k)
        else do
          let (change, rest) ← f.read depth (← colon rest)
          fromMembers l depth bound (k :: seen) false (change r) rest

/-- The end of a list in which nothing more may stand. -/
def listEnd : List Token → Except Fault (List Token)
  | [] => .error .endInList
  | .closeBracket :: rest => .ok rest
  | .comma :: .closeBracket :: _ => .error .trailingComma
  | _ => .error .trailingCharacters

/-- The position of the first required field, counted from `i`. -/
def firstRequired (i : Nat) : List (Field ρ) → Option Nat
  | [] => none
  | f :: fs => if f.required then some i else firstRequired (i + 1) fs

/-- The fields from position `i` on, to the end of the list. -/
def fromItems (l : Layout ρ) (depth : Nat) : List (Field ρ) → Nat → ρ → Reader ρ
  | [], _, r, ts => do .ok (r, ← listEnd ts)
  | f :: fs, i, r, ts => do
    match ← nextItem (i == 0) ts with
    | .done rest =>
      match firstRequired i (f :: fs) with
      | some n => .error (.wrongLength n l.expectedLength)
      | none => .ok (r, rest)
    | .more () ts => do
      let (change, rest) ← f.read depth ts
      fromItems l depth fs (i + 1) (change r) rest

/-- A record, written in either way. -/
def record (l : Layout ρ) (depth : Nat) : Reader ρ
  | [] => .error .endInValue
  | .openBracket :: rest =>
    match depth with
    | 0 => .error .tooDeep
    | depth + 1 => l.fromItems depth l.fields 0 l.blank rest
  | .openBrace :: rest =>
    match depth with
    | 0 => .error .tooDeep
    | depth + 1 => l.fromMembers depth rest [] true l.blank rest
  | t :: _ => .error (t.refusal l.expected)

end Layout

end ModelDirectives.Json
