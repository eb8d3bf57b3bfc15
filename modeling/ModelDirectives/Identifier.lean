import ModelDirectives.Text.Quoted

namespace ModelDirectives.Identifier

def mayStart (c : Char) : Bool :=
  c.isAlpha || c == '_'

def mayFollow (c : Char) : Bool :=
  c.isAlphanum || c == '_'

def spells : List Char → Bool
  | [] => false
  | c :: cs => mayStart c && cs.all mayFollow

/-- Whether a name is an identifier, nothing before or after it: an ASCII letter or an underscore,
then letters, digits and underscores. -/
def isValid (name : String) : Bool :=
  spells name.toList

/-- What is said of a name that is no identifier; `what` tells whose name it is. -/
def complaint (what name : String) : String :=
  "invalid " ++ what ++ " name " ++ Text.quoted name

def check (what name : String) : Option String :=
  if isValid name then none else some (complaint what name)

end ModelDirectives.Identifier
