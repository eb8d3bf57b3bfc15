import ModelDirectives.Json.Reader

namespace ModelDirectives.Json

namespace Skip

/-- What is open around the place reached. -/
inductive Frame where
  | list
  | object
  deriving DecidableEq, Repr

/-- What the next token has to be: a value; a value or key, or the end of what has just been
opened; a comma or the end; a key; a colon. -/
inductive Place where
  | value
  | opened
  | behind
  | key
  | colon
  deriving DecidableEq, Repr

structure State where
  place : Place
  frames : List Frame
  deriving DecidableEq, Repr

/-- Nothing is open and a value has been passed. -/
def State.finished (s : State) : Bool :=
  s.place = .behind && s.frames.isEmpty

/-- The fault of tokens that end in the middle of a value. -/
def State.fault (s : State) : Fault :=
  match s.place, s.frames with
  | .value, _ => .endInValue
  | _, .list :: _ => .endInList
  | _, _ => .endInObject

def pastWord (frames : List Frame) : Except Cut Unit → Except Fault State
  | .ok () => .ok ⟨.behind, frames⟩
  | .error cut => .error cut.faultInWord

def pastString (place : Place) (frames : List Frame) (ending : Ending) : Except Fault State :=
  match ending.fault? with
  | none => .ok ⟨place, frames⟩
  | some fault => .error fault

def intoValue (frames : List Frame) : Token → Except Fault State
  | .null outcome | .bool _ outcome => pastWord frames outcome
  | .number (.ok _) => .ok ⟨.behind, frames⟩
  | .number (.error _) => .error .invalidNumber
  | .string _ ending => pastString .behind frames ending
  | .openBracket => .ok ⟨.opened, .list :: frames⟩
  | .openBrace => .ok ⟨.opened, .object :: frames⟩
  | _ => .error .valueExpected

def pastKey (frames : List Frame) : Token → Except Fault State
  | .string _ ending => pastString .colon frames ending
  | _ => .error .keyNotString

def step (s : State) (t : Token) : Except Fault State :=
  match s.place, s.frames with
  | .value, frames => intoValue frames t
  | .key, frames => pastKey frames t
  | .colon, frames =>
    match t with
    | .colon => .ok ⟨.value, frames⟩
    | _ => .error .colonExpected
  | .opened, .list :: frames =>
    match t with
    | .closeBracket => .ok ⟨.behind, frames⟩
    | t => intoValue (.list :: frames) t
  | .opened, .object :: frames =>
    match t with
    | .closeBrace => .ok ⟨.behind, frames⟩
    | t => pastKey (.object :: frames) t
  | .behind, .list :: frames =>
    match t with
    | .comma => .ok ⟨.value, .list :: frames⟩
    | .closeBracket => .ok ⟨.behind, frames⟩
    | _ => .error .commaOrBracketExpected
  | .behind, .object :: frames =>
    match t with
    | .comma => .ok ⟨.key, .object :: frames⟩
    | .closeBrace => .ok ⟨.behind, frames⟩
    | _ => .error .commaOrBraceExpected
  | _, [] => .error .valueExpected

/-- Passes tokens until nothing is open any more. -/
def run (s : State) : List Token → Except Fault (List Token)
  | [] => if s.finished then .ok [] else .error s.fault
  | t :: ts => if s.finished then .ok (t :: ts) else do run (← step s t) ts

end Skip

/-- Passes over a value. It has to be JSON, but its numbers may be out of range, its units unpaired
and its lists and objects nested as deep as they like. -/
def Reader.skip (ts : List Token) : Except Fault (List Token) :=
  Skip.run ⟨.value, []⟩ ts

end ModelDirectives.Json
