import RightOfWay.Command.ReplayFiles
import RightOfWay.Command.RuleFile

/-!
# The command line

`Invocation.read?` takes a list of arguments apart.  A command comes with options, each a name and a
value, in any order.
-/

set_option autoImplicit false

namespace RightOfWay

/-- What is asked for on the command line. -/
inductive Invocation where
  | checkRules (path : String)
  | geometry (path : String)
  | replay (options : ReplayOptions)
  deriving DecidableEq

namespace Invocation

/-- The names of the options that take a value. -/
def optionNames : List String :=
  ["--config", "--intersection", "--events", "--rules", "--artifacts", "--max-models", "-n",
    "--oracle", "--clingo"]

/-- The options with their values, and the other arguments.
An option without a value is refused. -/
def split? : List String → Option (List (String × String) × List String)
  | [] => some ([], [])
  | name :: rest =>
    if optionNames.contains name then
      match rest with
      | [] => none
      | value :: rest =>
        (split? rest).map fun (options, others) ↦ ((name, value) :: options, others)
    else if name.startsWith "-" then none
    else (split? rest).map fun (options, others) ↦ (options, name :: others)

/-- The value of an option, the last one if there are several. -/
def value? (options : List (String × String)) (name : String) : Option String :=
  (options.reverse.find? (·.1 == name)).map (·.2)

/-- The oracle that the options choose. -/
def oracle? (options : List (String × String)) : Option OracleChoice :=
  match value? options "--oracle" with
  | none | some "builtin" => some .builtin
  | some "clingo" => some (.external ((value? options "--clingo").getD "clingo"))
  | some _ => none

/-- The options of a replay. -/
def replayOptions? (options : List (String × String)) : Option ReplayOptions := do
  let maxModels? ← (match (value? options "--max-models").or (value? options "-n") with
    | none => some none
    | some text => (natural? 10 text.toList).map some)
  return {
    intersection := ← value? options "--intersection"
    events := ← value? options "--events"
    rules? := value? options "--rules"
    artifacts? := value? options "--artifacts"
    maxModels?
    oracle := ← oracle? options
    config? := value? options "--config" }

/-- What the arguments ask for. -/
def read? (arguments : List String) : Option Invocation := do
  match ← split? arguments with
  | (_, ["check-rules", path]) => return checkRules path
  | (options, ["geometry"]) => return geometry (← value? options "--intersection")
  | (options, ["replay"]) => return replay (← replayOptions? options)
  | _ => none

/-- What comes of the invocation. -/
def run {m : Type → Type} [Monad m] (files : FileAccess m) (clock : Nat → Stamp) :
    Invocation → m (Except CommandError CommandResult)
  | checkRules path => checkRuleFile files path
  | geometry path => showGeometry files path
  | replay options => replayFiles files options clock

/-- How the command line is used. -/
def usage : String :=
  "usage: check-rules FILE\n" ++
  "       geometry --intersection FILE\n" ++
  "       replay --intersection FILE --events FILE [--rules FILE] [--artifacts DIR]\n" ++
  "              [-n COUNT] [--oracle builtin|clingo] [--clingo PATH] [--config FILE]\n"

end Invocation
end RightOfWay
