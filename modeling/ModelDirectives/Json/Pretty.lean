import ModelDirectives.Json.Compact

namespace ModelDirectives.Json

/-- The end of a line and the blanks that open the next one. -/
def newLine (depth : Nat) : List Char :=
  '\n' :: List.replicate (2 * depth) ' '

mutual

/-- A value with one item or member to a line, each level of nesting two blanks further in. Its
first line already stands at the given depth. -/
def pretty (depth : Nat) : Json → List Char
  | .array (x :: xs) =>
    '[' :: (newLine (depth + 1) ++ pretty (depth + 1) x ++ prettyItems (depth + 1) xs ++
      newLine depth ++ [']'])
  | .object ((k, v) :: ms) =>
    '{' :: (newLine (depth + 1) ++ quoted k ++ ':' :: ' ' :: (pretty (depth + 1) v ++
      prettyMembers (depth + 1) ms ++ newLine depth ++ ['}']))
  | .null => ['n', 'u', 'l', 'l']
  | .bool flag => word flag
  | .number n => n.text
  | .string s => quoted s
  | .array [] => ['[', ']']
  | .object [] => ['{', '}']

/-- Further items of an array, each on a line of its own. -/
def prettyItems (depth : Nat) : List Json → List Char
  | [] => []
  | x :: xs => ',' :: (newLine depth ++ pretty depth x ++ prettyItems depth xs)

/-- Further members of an object, each on a line of its own. -/
def prettyMembers (depth : Nat) : List (String × Json) → List Char
  | [] => []
  | (k, v) :: ms =>
    ',' :: (newLine depth ++ quoted k ++ ':' :: ' ' :: (pretty depth v ++
      prettyMembers depth ms))

end

end ModelDirectives.Json
