import RightOfWay.FileError

/-!
# Access to files

What the commands need of the world: reading and writing files.  A failure to write loses nothing
that the commands depend on, and is passed over.
-/

set_option autoImplicit false

namespace RightOfWay

/-- A way to reach files. -/
structure FileAccess (m : Type → Type) where
  read : (path : String) → m (Except FileError String)
  /-- Puts a text into a file, in place of what is there. -/
  write : (path text : String) → m Unit
  /-- Makes a directory and those that it is in, unless they are there. -/
  makeDirectory : (path : String) → m Unit
  /-- Why a file cannot be started as a program.  Other programs are never started. -/
  startError : (path : String) → m FileError

end RightOfWay
