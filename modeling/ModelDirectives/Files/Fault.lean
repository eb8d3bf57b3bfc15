import ModelDirectives.Decimal

namespace ModelDirectives

/-- Why a file cannot be read or written. -/
inductive FileFault where
  /-- The operating system refuses. -/
  | system (number : Nat) (text : String)
  | nulInName
  /-- What stands in the file is not UTF-8. -/
  | notText
  deriving DecidableEq, Repr

namespace FileFault

def missing : FileFault :=
  .system 2 "No such file or directory"

def notFolder : FileFault :=
  .system 20 "Not a directory"

def isFolder : FileFault :=
  .system 21 "Is a directory"

def nameTooLong : FileFault :=
  .system 36 "File name too long"

def message : FileFault → String
  | .system number text => text ++ " (os error " ++ Decimal.text number ++ ")"
  | .nulInName => "file name contained an unexpected NUL byte"
  | .notText => "stream did not contain valid UTF-8"

end FileFault

end ModelDirectives
