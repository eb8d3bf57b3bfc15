namespace ModelDirectives

inductive Format where
  | json
  | text
  deriving DecidableEq, Repr

/-- What the command is asked to do. -/
structure Options where
  model : String
  out : Option String
  format : Format
  strict : Bool
  verbose : Bool
  quiet : Bool
  deriving DecidableEq, Repr

namespace Arguments

/-- Why the arguments give no options: they are used wrongly, or they ask for help. -/
inductive Stop where
  | misused
  | help
  deriving DecidableEq, Repr

inductive Form where
  | separator
  /-- A name behind two dashes, perhaps with a value behind an equals sign. -/
  | long (name : String) (value : Option String)
  | letters (cs : List Char)
  | plain
  deriving DecidableEq, Repr

/-- Splits a text at its first equals sign. -/
def atEquals (cs : List Char) : String × Option String :=
  let name := String.ofList (cs.takeWhile (· != '='))
  match cs.dropWhile (· != '=') with
  | [] => (name, none)
  | _ :: value => (name, some (String.ofList value))

def formOf (arg : String) : Form :=
  match arg.toList with
  | ['-', '-'] => .separator
  | '-' :: '-' :: cs =>
    let (name, value) := atEquals cs
    .long name value
  | '-' :: c :: cs => .letters (c :: cs)
  | _ => .plain

/-- Whether an argument may be the value of the option before it. -/
def mayBeValue (arg : String) : Bool :=
  formOf arg = .plain

inductive Switch where
  | verbose
  | quiet
  | strict
  deriving DecidableEq, Repr

inductive Setting where
  | model
  | out
  | format
  deriving DecidableEq, Repr

inductive Name where
  | switch (s : Switch)
  | setting (s : Setting)
  | help
  deriving DecidableEq, Repr

/-- The options that may stand before the command as well. -/
def commonLong? (name : String) : Option Name :=
  if name = "verbose" then some (.switch .verbose)
  else if name = "quiet" then some (.switch .quiet)
  else if name = "help" then some .help
  else none

def commonLetter? (c : Char) : Option Name :=
  if c = 'v' then some (.switch .verbose)
  else if c = 'q' then some (.switch .quiet)
  else if c = 'h' then some .help
  else none

def long? (name : String) : Option Name :=
  if name = "model" then some (.setting .model)
  else if name = "out" then some (.setting .out)
  else if name = "format" then some (.setting .format)
  else if name = "strict" then some (.switch .strict)
  else commonLong? name

def letter? (c : Char) : Option Name :=
  if c = 'o' then some (.setting .out) else commonLetter? c

def format? (value : String) : Option Format :=
  if value = "json" then some .json
  else if value = "text" then some .text
  else none

structure Given where
  switches : List Switch
  model : Option String
  out : Option String
  format : Option Format
  deriving DecidableEq, Repr

namespace Given

def none : Given :=
  ⟨[], Option.none, Option.none, Option.none⟩

/-- Sets a switch, once. -/
def turnOn (g : Given) (s : Switch) : Except Stop Given :=
  if g.switches.contains s then .error .misused
  else .ok { g with switches := s :: g.switches }

/-- Gives an option its value, once. -/
def give (g : Given) (s : Setting) (value : String) : Except Stop Given :=
  match s with
  | .model => if g.model.isSome then .error .misused else .ok { g with model := some value }
  | .out => if g.out.isSome then .error .misused else .ok { g with out := some value }
  | .format =>
    match g.format, format? value with
    | Option.none, some f => .ok { g with format := some f }
    | _, _ => .error .misused

/-- `verbose` and `quiet` exclude each other where they stand together. -/
def contradicts (g : Given) : Bool :=
  g.switches.contains .verbose && g.switches.contains .quiet

end Given

/-- Reads letters behind one dash. A letter that takes a value takes the letters left, without an
equals sign in front, or else waits for the next argument. -/
def readLetters (letter? : Char → Option Name) :
    Given → List Char → Except Stop (Given × Option Setting)
  | g, [] => .ok (g, none)
  | g, c :: cs =>
    match letter? c with
    | none => .error .misused
    | some .help => .error .help
    | some (.switch s) => do readLetters letter? (← g.turnOn s) cs
    | some (.setting s) =>
      match cs with
      | [] => .ok (g, some s)
      | '=' :: value => do .ok (← g.give s (String.ofList value), none)
      | value => do .ok (← g.give s (String.ofList value), none)

def readLong (long? : String → Option Name) (g : Given) (name : String) (value : Option String) :
    Except Stop (Given × Option Setting) :=
  match long? name, value with
  | some .help, none => .error .help
  | some (.switch s), none => do .ok (← g.turnOn s, none)
  | some (.setting s), none => .ok (g, some s)
  | some (.setting s), some v => do .ok (← g.give s v, none)
  | _, _ => .error .misused

def readArgument (g : Given) (arg : String) (isLast : Bool) :
    Except Stop (Given × Option Setting) :=
  match formOf arg with
  | .separator => if isLast then .ok (g, none) else .error .misused
  | .long name value => readLong long? g name value
  | .letters cs => readLetters letter? g cs
  | .plain => .error .misused

def readCommand : Given → List String → Except Stop Given
  | g, [] => .ok g
  | g, arg :: rest =>
    match readArgument g arg rest.isEmpty, rest with
    | .error stop, _ => .error stop
    | .ok (g, none), rest => readCommand g rest
    | .ok (_, some _), [] => .error .misused
    | .ok (g, some s), value :: rest =>
      if mayBeValue value then do readCommand (← g.give s value) rest
      else .error .misused

/-- The options that arguments before and behind the command make up. -/
def combine (before behind : Given) : Except Stop Options :=
  if before.contradicts || behind.contradicts then .error .misused
  else
    match behind.model with
    | none => .error .misused
    | some model =>
      let isOn (s : Switch) := before.switches.contains s || behind.switches.contains s
      .ok ⟨model, behind.out, behind.format.getD .json, isOn .strict, isOn .verbose, isOn .quiet⟩

/-- Reads arguments from the front up to the command and behind it. -/
def readAll : Given → List String → Except Stop Options
  | _, [] => .error .misused
  | g, arg :: rest =>
    if arg = "resolve" then do combine g (← readCommand Given.none rest)
    else if arg = "help" then
      if rest = [] || rest = ["resolve"] || rest = ["help"] then .error .help else .error .misused
    else do
      let (g, _) ← match formOf arg with
        | .long name value => readLong commonLong? g name value
        | .letters cs => readLetters commonLetter? g cs
        | _ => .error .misused
      readAll g rest

/-- The options that the arguments of the command line give, in any order and each at most once. -/
def read (args : List String) : Except Stop Options :=
  readAll Given.none args

end Arguments

end ModelDirectives
