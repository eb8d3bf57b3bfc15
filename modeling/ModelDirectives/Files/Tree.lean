import ModelDirectives.Files.FileSystem

namespace ModelDirectives

/-- The folders of a file system without links, each under the names that lead to it from the root,
and the one that a path starts from when it begins with no slash. -/
structure FileTree where
  folders : List (List String)
  here : List String

namespace FileTree

/-- Every folder around the one to start from is there too. -/
def isFolder (t : FileTree) (place : List String) : Bool :=
  place.isPrefixOf t.here || t.folders.contains place

/-- Whether a name stands for the folder that it is looked up in. -/
def staysHere (name : String) : Bool :=
  name = "" || name = "."

def isLong (name : String) : Bool :=
  255 < name.utf8ByteSize

/-- Whether nothing is in a place. -/
def isFree (t : FileTree) (files : Files (List String)) (place : List String) : Bool :=
  !t.isFolder place && (files place).isNone

/-- Follows names from a place to what is there. Nothing is above the root but the root. -/
def walk (t : FileTree) (files : Files (List String)) :
    List String → List String → Except FileFault (List String)
  | here, [] => .ok here
  | here, name :: rest =>
    if !t.isFolder here then .error .notFolder
    else if staysHere name then walk t files here rest
    else if name = ".." then walk t files here.dropLast rest
    else if isLong name then .error .nameTooLong
    else if t.isFree files (here ++ [name]) then .error .missing
    else walk t files (here ++ [name]) rest

def names (path : String) : List String :=
  (path.toList.splitOn '/').map String.ofList

def start (t : FileTree) (path : String) : List String :=
  if path.toList.head? = some '/' then [] else t.here

def pathFault? (path : String) : Option FileFault :=
  if path.toList.contains (Char.ofNat 0) then some .nulInName
  else if path = "" then some .missing
  else if 4096 ≤ path.utf8ByteSize then some .nameTooLong
  else none

def locate (t : FileTree) (files : Files (List String)) (path : String) :
    Except FileFault (List String) :=
  match pathFault? path with
  | some fault => .error fault
  | none =>
    match t.walk files (t.start path) (names path) with
    | .error fault => .error fault
    | .ok place => if t.isFolder place then .error .isFolder else .ok place

def target (t : FileTree) (files : Files (List String)) (path : String) :
    Except FileFault (List String) :=
  match pathFault? path with
  | some fault => .error fault
  | none =>
    let slash := (names path).getLast? = some ""
    match (names path).reverse.dropWhile (· = "") with
    | [] => .error .isFolder
    | last :: before =>
      match t.walk files (t.start path) before.reverse with
      | .error fault => .error fault
      | .ok folder =>
        if !t.isFolder folder then .error .notFolder
        else if slash || last = "." || last = ".." then .error .isFolder
        else if isLong last then .error .nameTooLong
        else if t.isFolder (folder ++ [last]) then .error .isFolder
        else .ok (folder ++ [last])

def fileSystem (t : FileTree) : FileSystem (List String) :=
  ⟨t.locate, t.target⟩

end FileTree

end ModelDirectives
