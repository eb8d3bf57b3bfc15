import ModelDirectives.Command.Arguments
import ModelDirectives.Files.FileSystem
import ModelDirectives.Loading
import ModelDirectives.Report.Encoding
import ModelDirectives.Report.Table

namespace ModelDirectives

inductive Failure where
  | load (path : String) (fault : LoadFault)
  | strict (problems : Nat)
  | output (fault : FileFault)
  deriving Repr

namespace Failure

def summary : Failure → String
  | .load path fault => fault.summary path
  | .strict problems =>
    Decimal.text problems ++ " directive type mismatch(es) found in strict mode"
  | .output fault => fault.message

def cause? : Failure → Option String
  | .load _ fault => some fault.cause
  | _ => none

/-- A text with its lines moved in by four blanks. -/
def indented (s : String) : String :=
  String.ofList (s.toList.flatMap fun c => if c = '\n' then "\n    ".toList else [c])

/-- What is printed of a failure. The line and the column of a text that is no document, which the
JSON library puts behind the cause, are left out. -/
def text (f : Failure) : String :=
  "Error: " ++ f.summary ++
    match f.cause? with
    | none => ""
    | some cause => "\n\nCaused by:\n    " ++ indented cause

end Failure

namespace Report

def render (r : Report) : Format → String
  | .json => r.jsonText
  | .text => r.table

end Report

/-- The rendered report or why there is none, and the notices given. -/
structure Resolution where
  notices : List Notice
  outcome : Except Failure String

/-- Resolves the model in a file, given what reading the file brought. -/
def resolve (o : Options) (file : Except FileFault ByteArray) : Resolution :=
  let loading := Loading.ofFile file
  match loading.outcome with
  | .error fault => ⟨loading.notices, .error (.load o.model fault)⟩
  | .ok model =>
    let report := Report.ofModel model
    ⟨loading.notices ++ report.notices,
      if o.strict && report.hasProblems then .error (.strict report.totals.problems)
      else .ok (report.render o.format)⟩

namespace Options

/-- Whether a notice is logged: none when quiet, all when verbose, else the warnings. That is so
where `RUST_LOG` is not set in the environment. -/
def logs (o : Options) (n : Notice) : Bool :=
  !o.quiet && (o.verbose || n.level = .warning)

end Options

/-- What the program asks of its surroundings. -/
structure Host (m : Type → Type) where
  read : String → m (Except FileFault ByteArray)
  write : String → ByteArray → m (Except FileFault Unit)

/-- What a run of the program says, and its exit code. -/
structure Result where
  exit : Nat
  output : String
  errors : String
  log : List Notice

namespace Result

def usage : String :=
  "Usage: resolve --model <MODEL> [-o <OUT>] [--format json|text] [--strict] [-v] [-q]"

/-- Arguments that ask for nothing to be resolved. -/
def stopped : Arguments.Stop → Result
  | .misused => ⟨2, "", usage, []⟩
  | .help => ⟨0, usage ++ "\n", "", []⟩

def failed (log : List Notice) (f : Failure) : Result :=
  ⟨1, "", f.text, log⟩

def finished (log : List Notice) (output : String) : Result :=
  ⟨0, output, "", log⟩

end Result

namespace Program

variable {m : Type → Type} [Monad m]

/-- Hands over the rendered report, or says why there is none. -/
def handOver (host : Host m) (log : List Notice) (out : Option String) :
    Except Failure String → m Result
  | .error failure => return .failed log failure
  | .ok rendered =>
    match out with
    | none => return .finished log rendered
    | some path => do
      match ← host.write path rendered.toUTF8 with
      | .error fault => return .failed log (.output fault)
      | .ok () => return .finished log ("Wrote " ++ path ++ "\n")

/-- Nothing is handed over before everything else has succeeded. -/
def carryOut (host : Host m) (o : Options) : m Result := do
  let resolution := resolve o (← host.read o.model)
  handOver host (resolution.notices.filter o.logs) o.out resolution.outcome

def run (host : Host m) (args : List String) : m Result :=
  match Arguments.read args with
  | .error stop => return .stopped stop
  | .ok o => carryOut host o

end Program

namespace FileSystem

variable {Place : Type} [DecidableEq Place]

/-- The files of a file system as surroundings. -/
def host (fs : FileSystem Place) : Host (StateM (Files Place)) where
  read path := do return fs.read (← get) path
  write path bytes := do
    match fs.write (← get) path bytes with
    | .error fault => return .error fault
    | .ok files =>
      set files
      return .ok ()

end FileSystem

/-- What a run of the program leaves behind. -/
structure Run (Place : Type) extends Result where
  files : Files Place

namespace Run

variable {Place : Type} [DecidableEq Place]

def ofOptions (fs : FileSystem Place) (files : Files Place) (o : Options) : Run Place :=
  let (result, after) := Program.carryOut fs.host o files
  ⟨result, after⟩

def ofArguments (fs : FileSystem Place) (files : Files Place) (args : List String) : Run Place :=
  let (result, after) := Program.run fs.host args files
  ⟨result, after⟩

end Run

end ModelDirectives
