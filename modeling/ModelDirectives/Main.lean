import ModelDirectives.Command.Resolve

namespace ModelDirectives

/-- The fault behind an error of the operating system. -/
def FileFault.ofError : IO.Error → FileFault
  | .alreadyExists _ code text | .resourceBusy code text | .resourceVanished code text
  | .unsupportedOperation code text | .hardwareFault code text
  | .unsatisfiedConstraints code text | .illegalOperation code text | .protocolError code text
  | .timeExpired code text | .interrupted _ code text | .noFileOrDirectory _ code text
  | .invalidArgument _ code text | .permissionDenied _ code text
  | .resourceExhausted _ code text | .inappropriateType _ code text | .noSuchThing _ code text
  | .otherError code text => .system code.toNat text
  | .unexpectedEof => .system 0 "unexpected end of file"
  | .userError text => .system 0 text

/-- What comes of an action, and the fault when it fails. -/
def FileFault.tried {α : Type} (action : IO α) : IO (Except FileFault α) := do
  try
    return .ok (← action)
  catch e =>
    return .error (FileFault.ofError e)

/-- The files of the machine as surroundings. -/
def Host.machine : Host IO where
  read path := FileFault.tried (IO.FS.readBinFile path)
  write path bytes := FileFault.tried (IO.FS.writeBinFile path bytes)

end ModelDirectives

open ModelDirectives in
def main (args : List String) : IO UInt32 := do
  let result ← Program.run Host.machine args
  for notice in result.log do
    IO.eprintln notice.line
  IO.print result.output
  unless result.errors.isEmpty do
    IO.eprintln result.errors
  return result.exit.toUInt32
