import RightOfWay.Oracle.Basic
import RightOfWay.Oracle.Report
import RightOfWay.Text.Blank

/-!
# External solvers

A `Solver` is a program of its own that is run once per request.  It gets the wanted output format
and the cap on its command line and the program text on its input, and its output is read as a
report.  How it ends does not matter.
-/

set_option autoImplicit false

namespace RightOfWay

/-- What a solver prints. -/
structure SolverOutput where
  output : String
  diagnostics : String

/-- A solver that can be run with a list of arguments on an input. -/
structure Solver where
  executable : String
  run : (arguments : List String) → (input : String) → Except FileError SolverOutput

namespace Solver

/-- The arguments that a solver is run with. -/
def arguments (cap : Nat) : List String := ["--outf=2", toString cap]

/-- What a run of the solver amounts to. -/
def solve (s : Solver) (program : Program) (cap : Nat) : Except SolverError Outcome :=
  match s.run (arguments cap) program.text with
  | .error cause => .error (.notStarted s.executable cause)
  | .ok printed =>
    if Text.trim printed.output = "" then .error (.noOutput (Text.trim printed.diagnostics))
    else Report.read printed.output

end Solver

/-- The oracle that asks the solver.  It bears the name of the solver whose reports it reads. -/
def Oracle.external (s : Solver) : Oracle where
  name := "clingo"
  reply _ program cap :=
    match s.solve program cap with
    | .ok outcome => .outcome outcome
    | .error e => .outcome (.failure (.solver e))

end RightOfWay
