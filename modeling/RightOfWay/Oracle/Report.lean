import RightOfWay.Json.Reader
import RightOfWay.Logic.Model
import RightOfWay.Oracle.Outcome
import RightOfWay.Rules.Grammar

/-!
# Reports of an external solver

A solver prints a JSON report: a result and, for each of its calls, the witnesses that it found.  A
witness lists the atoms of a model as text.

`Report.ofJson?` takes the report from JSON, and `Report.outcome` says what it amounts to.  One atom
that cannot be read makes the whole report an error.
-/

set_option autoImplicit false

namespace RightOfWay

/-- A solver's report.  Each call has a list of witnesses, and each witness a list of atoms. -/
structure Report where
  result : String
  calls : List (List (List String))

namespace Report

/-- The elements of a list that may be missing, read one by one. -/
def items? {α : Type} (read? : Json → Option α) : Option Json → Option (List α)
  | none => some []
  | some (.array items) => items.mapM read?
  | some _ => none

/-- The atoms of a witness. -/
def witness? (j : Json) : Option (List String) :=
  match j.record? ["Value"] with
  | some [atoms] => items? Json.text? atoms
  | _ => none

/-- The witnesses of a call. -/
def call? (j : Json) : Option (List (List String)) :=
  match j.record? ["Witnesses"] with
  | some [witnesses] => items? witness? witnesses
  | _ => none

/-- The report that a JSON value stands for. -/
def ofJson? (j : Json) : Option Report :=
  match j.record? ["Result", "Call"] with
  | some [some (.string result), calls] => (items? call? calls).map (⟨result, ·⟩)
  | _ => none

/-- The atoms of a witness, or the first error among them. -/
def readWitness (atoms : List String) : Except SyntaxError Model :=
  (atoms.mapM parseAtom).map Model.ofAtoms

/-- The models of all witnesses, or the first error among them. -/
def readModels (r : Report) : Except SyntaxError (List Model) := r.calls.flatten.mapM readWitness

/-- What the report amounts to. -/
def outcome (r : Report) : Except SolverError Outcome :=
  if r.result = "SATISFIABLE" ∨ r.result = "OPTIMUM FOUND" then
    match r.readModels with
    | .ok models => .ok (.models models)
    | .error e => .error (.unreadableAtom e)
  else if r.result = "UNSATISFIABLE" then .ok .unsatisfiable
  else if r.result = "UNKNOWN" then .ok .undetermined
  else .error (.unknownResult r.result)

/-- What the text of a report amounts to. -/
def read (text : String) : Except SolverError Outcome :=
  match (Json.read? text).bind ofJson? with
  | some report => report.outcome
  | none => .error .malformed

end Report
end RightOfWay
