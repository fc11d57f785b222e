import RightOfWay.Command.Arguments

/-!
# The program

It reads the command line, does what is asked for, and prints the result.  An error is printed with
all of its causes, and the exit code tells that there was one.
-/

set_option autoImplicit false

namespace RightOfWay

/-- The error of the file system that an exception reports. -/
def FileError.ofIO : IO.Error → FileError
  | .noFileOrDirectory .. => .notFound
  | .permissionDenied .. => .permissionDenied
  | .inappropriateType _ code _ => if code = 21 then .isADirectory else .notADirectory
  | .invalidArgument .. => .nameTooLong
  | e => .other (toString e)

/-- Access to the files of the machine. -/
def machineFiles : FileAccess IO where
  read path := do
    if path.contains '\x00' then return .error .nulInPath
    match ← (IO.FS.readBinFile path).toBaseIO with
    | .error e => return .error (.ofIO e)
    | .ok bytes =>
      match String.fromUTF8? bytes with
      | some text => return .ok text
      | none => return .error .notUtf8
  write path text := do
    let _ ← (IO.FS.writeFile path text).toBaseIO
  makeDirectory path := do
    let _ ← (IO.FS.createDirAll path).toBaseIO
  startError _ := return .notFound

end RightOfWay

open RightOfWay

def main (arguments : List String) : IO UInt32 := do
  match Invocation.read? arguments with
  | none =>
    IO.eprint Invocation.usage
    return 2
  | some invocation =>
    let now ← IO.monoMsNow
    match ← invocation.run machineFiles fun _ ↦ .ofText (toString now) with
    | .ok result =>
      IO.print result.output
      return result.code.toUInt32
    | .error e =>
      IO.eprintln e.chain
      return 2
