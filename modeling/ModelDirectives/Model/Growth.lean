import ModelDirectives.Model

namespace ModelDirectives

namespace TypeDef

def named (name : String) (kind : TypeKind) : TypeDef :=
  ⟨name, kind, [], [], [], []⟩

end TypeDef

/-- One addition to a model. Types and members are counted from zero; what is not there cannot be
added to. -/
inductive Addition where
  | type (name : String) (kind : TypeKind)
  | attribute (type : Nat) (name typeName : String)
  | method (type : Nat) (name : String)
  | value (type : Nat) (name : String)
  | annotateType (type : Nat) (added : Annotation)
  | annotateAttribute (type member : Nat) (added : Annotation)
  | annotateMethod (type member : Nat) (added : Annotation)
  | annotateValue (type member : Nat) (added : Annotation)
  deriving DecidableEq, Repr

namespace Model

def empty : Model :=
  ⟨[]⟩

def atType (m : Model) (t : Nat) (change : TypeDef → TypeDef) : Model :=
  ⟨m.types.modify t change⟩

/-- Puts an addition behind what is already there. -/
def add (m : Model) : Addition → Model
  | .type name kind => ⟨m.types ++ [TypeDef.named name kind]⟩
  | .attribute t name typeName =>
    m.atType t fun d => { d with attributes := d.attributes ++ [⟨name, typeName, []⟩] }
  | .method t name => m.atType t fun d => { d with methods := d.methods ++ [⟨name, []⟩] }
  | .value t name => m.atType t fun d => { d with values := d.values ++ [⟨name, []⟩] }
  | .annotateType t a => m.atType t fun d => { d with annotations := d.annotations ++ [a] }
  | .annotateAttribute t i a => m.atType t fun d =>
    { d with attributes :=
        d.attributes.modify i fun c => { c with annotations := c.annotations ++ [a] } }
  | .annotateMethod t i a => m.atType t fun d =>
    { d with methods := d.methods.modify i fun c => { c with annotations := c.annotations ++ [a] } }
  | .annotateValue t i a => m.atType t fun d =>
    { d with values := d.values.modify i fun c => { c with annotations := c.annotations ++ [a] } }

end Model

end ModelDirectives
