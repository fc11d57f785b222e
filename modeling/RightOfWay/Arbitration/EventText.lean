import RightOfWay.Arbitration.Event
import RightOfWay.Yaml.Reader

/-!
# Reading events

Events are written in YAML, as a list.  An event is a mapping with its kind under `kind` and its
details under their names.  A detail may also be given by its number, and the whole event as a list
with the kind in front and the details in their order.

The details are read after the kind is known, when each plain scalar has got the meaning that it has
on its own.  So the name of a vehicle must be a text: a plain number does not do.
-/

set_option autoImplicit false

namespace RightOfWay.Event

/-- The text of a scalar that means one. -/
def plainText? : Yaml → Option String
  | .scalar s =>
    match s.meaning with
    | .text => some s.text
    | _ => none
  | _ => none

def ident? {r : Role} (y : Yaml) : Option (Ident r) := (plainText? y).bind Ident.ofText?

/-- The time that a number means. -/
def moment? : Yaml → Option Float
  | .scalar s =>
    match s.meaning with
    | .int n => some (.ofInt n)
    | .float x => some x
    | _ => none
  | _ => none

/-- The number that stands for a detail or a signal. -/
def index? (s : Scalar) : Option Nat :=
  match s.meaning with
  | .int n => if s.text.startsWith "-" then none else some n.toNat
  | _ => none

/-- The one of these names that a scalar gives, be it by its number. -/
def choice? (names : List String) (s : Scalar) : Option String :=
  match index? s, s.meaning with
  | some n, _ => names[n]?
  | none, .text => names.find? (· == s.text)
  | none, _ => none

/-- Whether nothing is said. -/
def isNothing : Yaml → Bool
  | .scalar s => s.isNull
  | .map entries => entries.isEmpty
  | .list _ => false

/-- A signal by its name, which may also be a key with nothing under it. -/
def signalText? : Yaml → Option Signal
  | .map [(.scalar key, value)] =>
    if isNothing value then
      (choice? (Signal.all.map Signal.constant) key).bind Signal.ofConstant?
    else none
  | y => (plainText? y).bind Signal.ofConstant?

/-- The names of the details of an event of the kind. -/
def details? (kind : String) : Option (List String) :=
  if kind = "arrival" then some ["vehicle", "fork", "sim_time", "signal"]
  else if kind = "entrance" then some ["vehicle", "fork", "sim_time"]
  else if kind = "enter_lane" ∨ kind = "exit_lane" then some ["vehicle", "lane", "sim_time"]
  else if kind = "exit_intersection" then some ["vehicle"]
  else none

/-- The event of the kind with these details. -/
def ofDetails? (kind : String) (details : List (Option Yaml)) : Option Event :=
  match details with
  | [some vehicle] => return departure (← ident? vehicle)
  | [some vehicle, some place, some time] => do
    let v ← ident? vehicle
    let t ← moment? time
    if kind = "entrance" then return entrance v (← ident? place) t
    else if kind = "enter_lane" then return enterLane v (← ident? place) t
    else return exitLane v (← ident? place) t
  | [some vehicle, some fork, some time, signal] => do
    let signal? ← Yaml.orElse? none (Yaml.optional? signalText?) signal
    return arrival (← ident? vehicle) (← ident? fork) (← moment? time) signal?
  | _ => none

/-- The event that a YAML node stands for. -/
def ofYaml? (y : Yaml) : Option Event :=
  match y with
  | .map entries => do
    let entries ← (Yaml.map entries).entries?
    match entries.partition fun (key, _) ↦ key.text == "kind" with
    | ([(_, kind)], others) =>
      let kind ← kind.text?
      let names ← details? kind
      let others ← others.mapM fun (key, value) ↦
        (choice? names key).map fun name ↦ ((⟨name, true⟩ : Scalar), value)
      ofDetails? kind (← Yaml.values? names others)
    | _ => none
  | .list (kind :: details) => do
    let kind ← kind.text?
    let names ← details? kind
    if names.length < details.length then none
    else
      ofDetails? kind (details.map some ++ List.replicate (names.length - details.length) none)
  | _ => none

/-- The events that a text lists. -/
def readList? (text : String) : Option (List Event) :=
  (Yaml.read? text).bind fun y ↦ y.items? ofYaml?

end RightOfWay.Event
