import RightOfWay.Crossing.Facts
import RightOfWay.FileError
import RightOfWay.Notice
import RightOfWay.Oracle.Program

/-!
# The journal

A monitor can keep two files for those who want to follow its reasoning: the facts about the
crossing, written anew whenever they change, and a log of all programs that it solved.  Both can be
read as programs, because what is not program text in them stands behind a `%`.
-/

set_option autoImplicit false

namespace RightOfWay

/-- What a clock shows: a text on one line. -/
structure Stamp where
  text : String
  no_line_end : '\n' ∉ text.toList

namespace Stamp

/-- The stamp of a text, which loses its line ends. -/
def ofText (text : String) : Stamp :=
  ⟨String.ofList (text.toList.filter (· ≠ '\n')), by simp⟩

end Stamp

/-- The texts of the two files of a monitor. -/
structure Journal where
  /-- The name of the monitor. -/
  name : String
  /-- What the clock shows when the entry of the number is made. -/
  clock : Nat → Stamp
  geometry : String
  log : String
  /-- The number of programs in the log. -/
  entries : Nat

namespace Journal

/-- The name of the file with the facts about the crossing. -/
def geometryName (j : Journal) : String := j.name ++ "Geometry.cl"

/-- The name of the file with the programs. -/
def logName (j : Journal) : String := j.name ++ "Log.cl"

/-- The facts under a line with their hash. -/
def geometryText (f : Facts) : String := "% geometry " ++ f.fingerprint.text ++ "\n" ++ f.text

/-- The journal of a monitor that has solved nothing yet. -/
def start (name : String) (clock : Nat → Stamp) (f : Facts) : Journal :=
  ⟨name, clock, geometryText f, "", 0⟩

/-- The journal with new facts about the crossing. -/
def writeGeometry (j : Journal) (f : Facts) : Journal := { j with geometry := geometryText f }

/-- The line above the program of the number. -/
def header (j : Journal) (number : Nat) (p : Program) : String :=
  "% program " ++ toString number ++ " " ++ (j.clock number).text ++ " " ++
    p.fingerprint.text ++ "\n"

/-- The text with a line end behind it. -/
def withLineEnd (text : String) : String :=
  if text.toList.getLast? = some '\n' then text else text ++ "\n"

/-- The journal with one more program in the log. -/
def append (j : Journal) (p : Program) : Journal :=
  { j with
    log := j.log ++ j.header (j.entries + 1) p ++ withLineEnd p.text
    entries := j.entries + 1 }

/-- The two files by name. -/
def files (j : Journal) : List (String × String) :=
  [(j.geometryName, j.geometry), (j.logName, j.log)]

/-- The files that a directory can hold. -/
def storable (j : Journal) : List (String × String) :=
  j.files.filter fun (name, _) ↦ nameFits name

/-- What is to be said when the facts about the crossing are written. -/
def factsNotice? (j : Journal) : Option Notice :=
  if nameFits j.geometryName then none else some .factsNotWritten

/-- What is to be said when a program is put into the log. -/
def programNotice? (j : Journal) : Option Notice :=
  if nameFits j.logName then none else some .programNotLogged

end Journal
end RightOfWay
