/-!
# Errors of the file system

What can be wrong with a file that is to be read, written or run, with the words and the number that
the operating system gives to it.  A path holds no NUL, and neither a path nor a name on it may have
more bytes than its limit.
-/

set_option autoImplicit false

namespace RightOfWay

/-- Why a file could not be read, written or run. -/
inductive FileError where
  | notFound
  | permissionDenied
  /-- A file stands where the path goes on. -/
  | notADirectory
  | isADirectory
  /-- A path, or a name on it, has too many bytes. -/
  | nameTooLong
  /-- The path of a file holds a NUL. -/
  | nulInPath
  /-- The path of a program that is to be started holds a NUL. -/
  | nulInProgram
  | notUtf8
  /-- Another error of the system, in its words. -/
  | other (words : String)
  deriving DecidableEq

/-- The wording of the error. -/
def FileError.message : FileError → String
  | notFound => "No such file or directory (os error 2)"
  | permissionDenied => "Permission denied (os error 13)"
  | notADirectory => "Not a directory (os error 20)"
  | isADirectory => "Is a directory (os error 21)"
  | nameTooLong => "File name too long (os error 36)"
  | nulInPath => "file name contained an unexpected NUL byte"
  | nulInProgram => "nul byte found in provided data"
  | notUtf8 => "stream did not contain valid UTF-8"
  | other words => words

/-- Whether a directory can hold a file of this name, as far as its length goes. -/
def nameFits (name : String) : Bool := name.utf8ByteSize ≤ 255

/-- Whether a path is short enough to be followed at all. -/
def pathFits (path : String) : Bool := path.utf8ByteSize ≤ 4095

end RightOfWay
