namespace ModelDirectives

namespace Json

/-- A number is kept whole when it was written whole and fits in 64 bits, signed or not. -/
inductive Number where
  | int (value : Int)
  | real (value : Float)
  deriving Repr, Inhabited

end Json

/-- A JSON value. An object is a list of members in the order in which each key was first written.
-/
inductive Json where
  | null
  | bool (flag : Bool)
  | number (value : Json.Number)
  | string (text : String)
  | array (items : List Json)
  | object (members : List (String × Json))
  deriving Repr, Inhabited

namespace Json

/-- Writes a member into a list: over the one with the same key, or at the end. -/
def writeMember {α : Type} (key : String) (value : α) : List (String × α) → List (String × α)
  | [] => [(key, value)]
  | (k, v) :: rest =>
    if k = key then (k, value) :: rest else (k, v) :: writeMember key value rest

/-- What remains of members written one after the other: of a repeated key the first position and
the last value. -/
def collect {α : Type} (written : List (String × α)) : List (String × α) :=
  written.foldl (fun members m => writeMember m.1 m.2 members) []

end Json

end ModelDirectives
