import ModelDirectives.Text.Blank
import ModelDirectives.Model

namespace ModelDirectives.Lookup

/-- The first annotation of a name, the only one that counts. Lookups that find none, or not what
they ask for, give a neutral default. -/
def first? {α : Type} [Annotated α] (concept : α) (name : String) : Option Annotation :=
  (annotationsOf concept).find? (·.name = name)

/-- The value of a parameter in the first annotation of a name. -/
def value? {α : Type} [Annotated α] (concept : α) (name parameter : String) :
    Option Value :=
  (first? concept name).bind (·.find? parameter)

/-- A parameter that is a string, else the empty one. -/
def string {α : Type} [Annotated α] (concept : α) (name parameter : String) : String :=
  ((value? concept name parameter).bind Value.string?).getD ""

/-- A parameter of either kind as text, else the empty one. -/
def text {α : Type} [Annotated α] (concept : α) (name parameter : String) : String :=
  ((value? concept name parameter).map Value.text).getD ""

/-- A parameter that is a boolean, else `false`. -/
def bool {α : Type} [Annotated α] (concept : α) (name parameter : String) : Bool :=
  ((value? concept name parameter).bind Value.bool?).getD false

/-- The tokens of a parameter that is a string, else none. -/
def context {α : Type} [Annotated α] (concept : α) (name parameter : String) :
    List String :=
  (((value? concept name parameter).bind Value.string?).map Context.split).getD []

end ModelDirectives.Lookup
