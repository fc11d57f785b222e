import RightOfWay.Arbitration.Dispatch
import RightOfWay.Arbitration.Journal
import RightOfWay.Arbitration.Ledger
import RightOfWay.Arbitration.Settings
import RightOfWay.Oracle.Advisor
import RightOfWay.Text.Quoted

/-!
# The monitor

A `Monitor` watches a crossing.  For every event it

1. records the facts of the event in the ledger,
2. puts the ledger, the facts about the crossing and the traffic rules to the oracle, and
3. passes the verdicts of the selected model on to the vehicles.

A departure is different: the vehicle is forgotten, and nothing is solved.  Where there is no model
to act on, all vehicles go on as they were told last.
-/

set_option autoImplicit false

namespace RightOfWay

/-- What watches a crossing. -/
structure Monitor where
  settings : Settings
  resolution : Resolution
  topology : Topology
  probe : Probe
  cache : FactsCache
  rules : String
  advisor : Advisor
  ledger : Ledger
  controls : Controls
  journal? : Option Journal
  /-- The command that each vehicle accepted last. -/
  lastCommands : Std.ExtTreeMap VehicleId Command

/-- The outcome of a solve. -/
structure Solution where
  /-- The number of the solve, counted from one. -/
  sequence : Nat
  program : Program
  outcome : Outcome

/-- What comes of an event. -/
structure Cycle where
  solution : Solution
  dispatch : Dispatch

namespace Monitor

/-- A monitor for the crossing.  What the clock shows goes into the journal, if one is kept. -/
def make (settings : Settings) (topology : Topology) (probe : Probe) (rules : String)
    (oracle : Oracle) (clock : Nat → Stamp) : Except InvalidValue Monitor := do
  let resolution ← settings.check
  let advisor ← Advisor.make oracle settings.maxModels
  let facts := Facts.compile topology probe
  return {
    settings, resolution, topology, probe, rules, advisor
    cache := FactsCache.empty.refresh topology probe
    ledger := .empty
    controls := .empty
    journal? := settings.artifactDir?.map fun _ ↦ .start settings.name clock facts
    lastCommands := ∅ }

/-- The monitor with another oracle to ask from now on. -/
def withOracle (m : Monitor) (oracle : Oracle) : Monitor :=
  { m with advisor := { m.advisor with oracle } }

/-! ## The crossing -/

/-- The lane from the fork to the exit opened or closed. -/
def setLane (m : Monitor) (fork : ForkId) (exit : ExitId) (active : Bool) :
    Except CrossingError (LaneChange × Monitor) :=
  (m.topology.setLane fork exit active).map fun change ↦
    (change, { m with topology := change.topology })

/-- The facts about the crossing as it is now. -/
def geometry (m : Monitor) : Facts := m.cache.lookup m.topology m.probe

/-- The monitor with the facts about the crossing brought up to date, in the journal too. -/
def refresh (m : Monitor) : Monitor :=
  { m with
    cache := m.cache.refresh m.topology m.probe
    journal? :=
      if m.cache.isStale m.topology.revision then m.journal?.map (·.writeGeometry m.geometry)
      else m.journal? }

/-- What is to be said when the facts about the crossing are brought up to date. -/
def refreshNotice? (m : Monitor) : Option Notice :=
  if m.cache.isStale m.topology.revision then m.journal?.bind Journal.factsNotice? else none

/-! ## Vehicles -/

/-- The monitor with a handle for the vehicle, in place of the one it has. -/
def attach (m : Monitor) (v : VehicleId) (h : Handle) : Monitor :=
  { m with controls := m.controls.attach v h }

/-- Whether anything is known about the vehicle. -/
def knows (m : Monitor) (v : VehicleId) : Bool := m.ledger.contains v || m.controls.contains v

/-- The monitor without anything about the vehicle. -/
def forget (m : Monitor) (v : VehicleId) : Monitor :=
  { m with
    ledger := m.ledger.evict v
    controls := m.controls.detach v
    lastCommands := m.lastCommands.erase v }

/-! ## Steps of a cycle -/

/-- What is to be said about the element that an event names. -/
def elementNotice? (m : Monitor) (e : Event) : Option Notice :=
  match e.element? with
  | none => none
  | some (constant, kind) =>
    match m.topology.element? constant with
    | none => some .unknownElement
    | some element => if element.kind = kind then none else some .wrongElement

/-- What is to be said about an event that is to be recorded. -/
def recordNotices (m : Monitor) (e : Event) : List Notice :=
  (m.elementNotice? e).toList ++ (m.ledger.notice? e.vehicle e.phase).toList

/-- The monitor with the event recorded. -/
def record (m : Monitor) (e : Event) : Monitor :=
  { m with ledger := m.ledger.observeEvent e (e.tick m.resolution) }

/-- The program that is to be solved next. -/
def program (m : Monitor) : Program := .assemble m.ledger.text m.geometry.text m.rules

/-- The solution of the program as it is now. -/
def solve (m : Monitor) : Solution × Monitor :=
  let program := m.program
  let current := m.refresh
  let advisor := m.advisor.counted
  (⟨advisor.solves, program, m.advisor.answer program⟩,
    { current with advisor, journal? := current.journal?.map (·.append program) })

/-- What is to be said about a solve that came to the solution. -/
def solveNotices (m : Monitor) (s : Solution) : List Notice :=
  m.refreshNotice?.toList ++ s.outcome.notice?.toList ++
    (m.journal?.bind Journal.programNotice?).toList

/-- The verdicts of a solution passed on to the vehicles.
Where no model is selected, nothing is. -/
def dispatch (m : Monitor) (s : Solution) : Dispatch × Monitor :=
  match s.outcome.selected with
  | none => (.none, m)
  | some model =>
    let (report, controls) := m.controls.dispatch model
    (report,
      { m with
        controls
        lastCommands := report.issued.foldl (fun cs (v, c) ↦ cs.insert v c) m.lastCommands })

/-- One turn for an event that is no departure. -/
def cycle (m : Monitor) (e : Event) : Cycle × Monitor :=
  let (solution, m) := (m.record e).solve
  let (dispatch, m) := m.dispatch solution
  (⟨solution, dispatch⟩, m)

/-- What is done about an event. -/
def handle (m : Monitor) (e : Event) : Option Cycle × Monitor :=
  if e.isDeparture then (none, m.forget e.vehicle)
  else
    let (cycle, m) := m.cycle e
    (some cycle, m)

/-- What is to be said about a cycle that began with the event. -/
def cycleNotices (m : Monitor) (e : Event) (c : Cycle) : List Notice :=
  m.recordNotices e ++ m.solveNotices c.solution ++ c.dispatch.notices

/-- The monitor in brief. -/
def describe (m : Monitor) : String :=
  "Monitor \x7b name: " ++ Text.quote m.settings.name ++ ", agents: " ++
    toString m.ledger.agents.size ++ ", handles: " ++ m.controls.describe ++ ", adapter: " ++
    m.advisor.describe ++ " \x7d"

end Monitor
end RightOfWay
