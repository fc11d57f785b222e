import RightOfWay.FileError
import RightOfWay.Logic.Model
import RightOfWay.Notice
import RightOfWay.Rules.Token

/-!
# Outcomes of a solve

An `Outcome` is what an oracle makes of a program: models, the certainty that there are none, no
answer, or a failure.

`Outcome.canonicalize` makes the models of an outcome independent of the order in which the oracle
found them: they are sorted, repetitions are dropped, and the least ones are kept, up to a cap.  The
first model that is left is the one to act on.
-/

set_option autoImplicit false

namespace RightOfWay

/-- Why the output of an external solver is no answer. -/
inductive SolverError where
  | notStarted (executable : String) (cause : FileError)
  /-- The solver printed nothing but this on its error output. -/
  | noOutput (diagnostics : String)
  /-- The output is no report. -/
  | malformed
  | unknownResult (result : String)
  /-- An atom of the report cannot be read. -/
  | unreadableAtom (error : SyntaxError)
  deriving DecidableEq

/-- The wording of the error. -/
def SolverError.message : SolverError → String
  | notStarted executable cause => "failed to run " ++ executable ++ ": " ++ cause.message
  | noOutput diagnostics => "solver produced no output (stderr: " ++ diagnostics ++ ")"
  | malformed => "malformed solver output"
  | unknownResult result => "unrecognized solver result " ++ Text.quote result
  | unreadableAtom error => error.message

/-- Why a solve failed. -/
inductive Failure where
  | rules (error : RuleError)
  | solver (error : SolverError)
  /-- The oracle broke down, perhaps with some last words. -/
  | crash (words : Option String)
  /-- The oracle gave a reason of its own. -/
  | other (reason : String)
  deriving DecidableEq

/-- The wording of the failure. -/
def Failure.message : Failure → String
  | rules error => error.message
  | solver error => error.message
  | crash none => "oracle panicked"
  | crash (some words) => "oracle panicked: " ++ words
  | other reason => reason

/-- What an oracle makes of a program. -/
inductive Outcome where
  | models (models : List Model)
  | unsatisfiable
  | undetermined
  | failure (failure : Failure)

namespace Outcome

/-- The word for the kind of outcome. -/
def label : Outcome → String
  | models _ => "satisfiable"
  | unsatisfiable => "unsatisfiable"
  | undetermined => "undetermined"
  | failure _ => "failure"

/-- The model to act on, if there is one. -/
def selected : Outcome → Option Model
  | models ms => ms.head?
  | _ => none

def isActionable (o : Outcome) : Bool := o.selected.isSome

/-- The least models, in order and without repetitions, at most as many as the cap allows. -/
def leastModels (cap : Nat) (ms : List Model) : List Model :=
  (Std.ExtTreeSet.ofList ms).toList.take cap

/-- The outcome with its models in canonical form; no models are no answer. -/
def canonicalize (cap : Nat) : Outcome → Outcome
  | models ms =>
    match leastModels cap ms with
    | [] => undetermined
    | m :: ms => models (m :: ms)
  | o => o

/-- What is to be said about an outcome that nothing can be done with. -/
def notice? : Outcome → Option Notice
  | models _ => none
  | unsatisfiable => some .unsatisfiable
  | undetermined => some .undetermined
  | failure _ => some .oracleFailed

end Outcome
end RightOfWay
