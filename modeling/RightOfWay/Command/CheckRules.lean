import RightOfWay.Oracle.Stratified

/-!
# Checking a rule file

Rules are checked before they are put to use: whether they can be read, and whether the built-in
oracle can evaluate them on their own, without any facts.
-/

set_option autoImplicit false

namespace RightOfWay

/-- What a check finds. -/
inductive RuleCheck where
  | passed (rules : Nat)
  /-- The rules can be read, but another oracle has to evaluate them. -/
  | notEvaluable (rules : Nat)
  | failed (reason : Failure)

namespace RuleCheck

/-- The exit code that reports the finding. -/
def exitCode : RuleCheck → Nat
  | passed _ => 0
  | notEvaluable _ => 0
  | failed _ => 1

/-- The wording of the finding. -/
def message : RuleCheck → String
  | passed rules => "OK: " ++ toString rules ++ " rule(s)"
  | notEvaluable rules =>
    "WARN: " ++ toString rules ++ " rule(s) parse, but the builtin oracle cannot evaluate them"
  | failed reason => "FAIL: " ++ reason.message

end RuleCheck

/-- The finding for a rule text. -/
def checkRules (text : String) : RuleCheck :=
  match parseProgram text with
  | .error e => .failed (.rules e)
  | .ok rules =>
    match (evaluate standardBudget rules).toOutcome with
    | .undetermined => .notEvaluable rules.length
    | .failure reason => .failed reason
    | _ => .passed rules.length

end RightOfWay
