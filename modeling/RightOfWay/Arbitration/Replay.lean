import RightOfWay.Arbitration.Monitor

/-!
# Replaying events

`Monitor.replay` puts a list of recorded events to a monitor.  Every vehicle gets an obedient handle
when it is first heard of, unless that is on its departure.  Each event gives a `Step` of the
protocol, and `Monitor.summary` sums the protocol up.
-/

set_option autoImplicit false

namespace RightOfWay

/-- What came of one event of a replay. -/
structure Step where
  /-- The number of the event, counted from one. -/
  index : Nat
  event : Event
  /-- Nothing for a departure. -/
  cycle? : Option Cycle

namespace Step

/-- The text with blanks behind it up to the width. -/
def padded (width : Nat) (text : String) : String :=
  text ++ String.ofList (List.replicate (width - text.length) ' ')

/-- A vehicle and its command. -/
def renderOrder (order : VehicleId × Command) : String := order.1.text ++ "=" ++ order.2.label

/-- The outcome of a cycle with the commands that it issued and the number of verdicts skipped. -/
def renderCycle (c : Cycle) : String :=
  c.solution.outcome.label ++
    String.join (c.dispatch.issued.map fun order ↦ " " ++ renderOrder order) ++
    if c.dispatch.skipped.isEmpty then ""
    else " (" ++ toString c.dispatch.skipped.length ++ " skipped)"

/-- The step on one line. -/
def render (s : Step) : String :=
  "#" ++ padded 3 (toString s.index) ++ " " ++ padded 17 s.event.kind ++ " " ++
    padded 10 s.event.vehicle.text ++ " " ++
    match s.cycle? with
    | none => "evicted"
    | some cycle => renderCycle cycle

end Step

namespace Monitor

/-- The monitor with an obedient handle for the vehicle of the event, if it needs one. -/
def welcome (m : Monitor) (e : Event) : Monitor :=
  if e.isDeparture || m.controls.contains e.vehicle then m else m.attach e.vehicle .obeying

/-- The steps for events that are numbered from `index` on, and the monitor after them. -/
def replayFrom (index : Nat) (m : Monitor) : List Event → List Step × Monitor
  | [] => ([], m)
  | e :: es =>
    let (cycle?, m) := (m.welcome e).handle e
    let (steps, m) := m.replayFrom (index + 1) es
    (⟨index, e, cycle?⟩ :: steps, m)

/-- The steps of a replay, and the monitor after it. -/
def replay (m : Monitor) (events : List Event) : List Step × Monitor := m.replayFrom 1 events

/-- The command that each vehicle accepted last, and the number of all accepted commands. -/
def summary (m : Monitor) : String :=
  let commands := m.lastCommands.toList.map fun (v, c) ↦ "  " ++ v.text ++ ": " ++ c.label ++ "\n"
  "\nFinal commands:\n" ++ (if commands.isEmpty then "  (none)\n" else String.join commands) ++
    toString m.controls.accepted.length ++ " command(s) issued in total.\n"

end Monitor
end RightOfWay
