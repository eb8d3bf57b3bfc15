import ModelDirectives.Files.Fault

namespace ModelDirectives

/-- What the files hold, each under its place. -/
abbrev Files (Place : Type) :=
  Place → Option ByteArray

variable {Place : Type}

/-- Puts a file in a place, over the one that is there. -/
def Files.put [DecidableEq Place] (files : Files Place) (place : Place) (bytes : ByteArray) :
    Files Place :=
  fun p => if p = place then some bytes else files p

/-- Where paths lead to. Folders, links, rights and the folder that a path starts from belong to it.
Writing to a file changes none of them, so only what the files hold is kept apart. -/
structure FileSystem (Place : Type) where
  /-- The file that a path leads to. -/
  locate : Files Place → String → Except FileFault Place
  /-- The file that is opened for writing, or made where there is none. -/
  target : Files Place → String → Except FileFault Place

namespace FileSystem

def read (fs : FileSystem Place) (files : Files Place) (path : String) :
    Except FileFault ByteArray :=
  match fs.locate files path with
  | .error fault => .error fault
  | .ok place =>
    match files place with
    | some bytes => .ok bytes
    | none => .error .missing

variable [DecidableEq Place]

/-- The files after one was written, or why it could not be opened. A file that is open is taken to
hold all that is written to it: a full disk or a device, say, is not described. -/
def write (fs : FileSystem Place) (files : Files Place) (path : String) (bytes : ByteArray) :
    Except FileFault (Files Place) :=
  (fs.target files path).map fun place => files.put place bytes

/-- A path that a file was written through leads to that file. -/
structure Lawful (fs : FileSystem Place) : Prop where
  locate_of_target : ∀ {files : Files Place} {path : String} {place : Place},
    fs.target files path = .ok place → ∀ bytes, fs.locate (files.put place bytes) path = .ok place

end FileSystem

end ModelDirectives
