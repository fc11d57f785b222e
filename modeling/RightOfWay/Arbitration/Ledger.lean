import RightOfWay.Arbitration.Event
import RightOfWay.Notice

/-!
# The ledger

The `Ledger` keeps, for each vehicle at the crossing, its phase and the facts about it, oldest
first.  A vehicle that departs is evicted with everything that is known about it.
-/

set_option autoImplicit false

namespace RightOfWay

/-- What is known about a vehicle. -/
structure History where
  phase? : Option Phase
  facts : List Atom
  deriving DecidableEq

namespace History

/-- Nothing is known. -/
def blank : History := ⟨none, []⟩

end History

/-- What is known about each vehicle at the crossing. -/
structure Ledger where
  agents : Std.ExtTreeMap VehicleId History

namespace Ledger

def empty : Ledger := ⟨∅⟩

/-- What is known about the vehicle; nothing at first. -/
def history (l : Ledger) (v : VehicleId) : History := l.agents.getD v .blank

/-- The ledger with one more fact about the vehicle. -/
def record (l : Ledger) (v : VehicleId) (a : Atom) : Ledger :=
  ⟨l.agents.insert v { l.history v with facts := (l.history v).facts ++ [a] }⟩

/-- The ledger with the vehicle in the phase and with more facts about it. -/
def observe (l : Ledger) (v : VehicleId) (p : Phase) (facts : List Atom) : Ledger :=
  ⟨l.agents.insert v ⟨some p, (l.history v).facts ++ facts⟩⟩

/-- What is to be said about a step to the phase. -/
def notice? (l : Ledger) (v : VehicleId) (p : Phase) : Option Notice :=
  if Phase.expected (l.history v).phase? p then none else some .unexpectedPhase

/-- The ledger with the facts of the event at the tick. -/
def observeEvent (l : Ledger) (e : Event) (tick : Tick) : Ledger :=
  l.observe e.vehicle e.phase (e.facts tick)

/-- The ledger without the vehicle. -/
def evict (l : Ledger) (v : VehicleId) : Ledger := ⟨l.agents.erase v⟩

def contains (l : Ledger) (v : VehicleId) : Bool := l.agents.contains v

/-- The vehicles, in order. -/
def vehicles (l : Ledger) : List VehicleId := l.agents.keys

/-- All facts, vehicle by vehicle. -/
def facts (l : Ledger) : List Atom := l.agents.values.flatMap History.facts

/-- The facts as program text. -/
def text (l : Ledger) : String := renderFacts l.facts

end Ledger
end RightOfWay
