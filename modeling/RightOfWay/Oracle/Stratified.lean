import RightOfWay.Oracle.Basic
import RightOfWay.Rules.Evaluation
import RightOfWay.Rules.Grammar

/-!
# The built-in oracle

It reads the program and evaluates it.  A program that cannot be read is a failure.  One that is not
stratifiable, or that derives more atoms than the budget allows, is left undetermined.  Every other
program has exactly one model or, if that violates a constraint, none.
-/

set_option autoImplicit false

namespace RightOfWay

/-- The number of atoms that an evaluation may derive if nothing else is asked for. -/
def standardBudget : Nat := 100000

/-- The outcome that an evaluation amounts to. -/
def Evaluation.toOutcome : Evaluation → Outcome
  | model atoms => .models [.ofAtoms atoms]
  | constraintViolated _ => .unsatisfiable
  | notStratifiable _ => .undetermined
  | budgetExceeded => .undetermined

/-- The outcome of a program text. -/
def solveText (budget : Nat) (text : String) : Outcome :=
  match parseProgram text with
  | .error e => .failure (.rules e)
  | .ok rules => (evaluate budget rules).toOutcome

/-- The oracle that evaluates programs itself, within the budget. -/
def Oracle.stratified (budget : Nat) : Oracle where
  name := "stratified"
  reply _ program _ := .outcome (solveText budget program.text)

end RightOfWay
