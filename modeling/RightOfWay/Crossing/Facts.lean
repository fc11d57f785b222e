import RightOfWay.Crossing.Overlap
import RightOfWay.Crossing.Topology
import RightOfWay.Digest.Fingerprint
import RightOfWay.Logic.Atom

/-!
# Facts about a crossing

Rules see a crossing as facts: which fork is to the right of which, where each open lane leads and
what signal it asks for, and which open lanes overlap.

`Facts.compile` lists them, and a `FactsCache` keeps them until the revision of the topology
changes.
-/

set_option autoImplicit false

namespace RightOfWay

/-- The facts about a crossing, in order. -/
structure Facts where
  atoms : List Atom
  deriving DecidableEq

namespace Facts

/-- The facts as program text. -/
def text (f : Facts) : String := renderFacts f.atoms

/-- The hash that identifies the facts. -/
def fingerprint (f : Facts) : Fingerprint := .ofText f.text

/-- The atom that relates these constants. -/
def relate (predicate : String) (constants : List String) : Atom :=
  ⟨predicate, constants.map .symbol⟩

/-- Which of two forks is to the right of the other, if either is. -/
def rightOf (a b : Fork) : List Atom :=
  if isOnRight a.forward b.forward then [relate "isOnRightOf" [a.id.constant, b.id.constant]]
  else if isOnRight b.forward a.forward then [relate "isOnRightOf" [b.id.constant, a.id.constant]]
  else []

/-- Which of the forks are to the right of which, pair by pair. -/
def ofForks : List Fork → List Atom
  | [] => []
  | f :: fs => fs.flatMap (rightOf f) ++ ofForks fs

/-- Where a lane leads, and the signal it asks for. -/
def ofLane (l : Lane) : List Atom :=
  [relate "laneFromTo" [l.id.constant, l.fork.constant, l.exit.constant],
    relate "laneCorrectSignal" [l.id.constant, l.requiredSignal.constant]]

/-- That the first lane overlaps the second. -/
def overlap (a b : Lane) : Atom := relate "overlaps" [a.id.constant, b.id.constant]

/-- Which of the lanes overlap.  Each overlaps itself, and the probe is asked once for each pair. -/
def ofOverlaps (probe : Probe) : List Lane → List Atom
  | [] => []
  | l :: ls =>
    overlap l l :: ls.flatMap (fun m ↦ if probe l m then [overlap l m, overlap m l] else []) ++
      ofOverlaps probe ls

/-- The facts about the crossing. -/
def compile (t : Topology) (probe : Probe) : Facts :=
  ⟨ofForks t.forks.values ++ t.lanes.values.flatMap ofLane ++ ofOverlaps probe t.lanes.values⟩

end Facts

/-- The facts compiled last, with the revision they belong to. -/
structure FactsCache where
  entry? : Option (Nat × Facts)

namespace FactsCache

def empty : FactsCache := ⟨none⟩

/-- The facts in the cache, whatever their revision. -/
def facts? (c : FactsCache) : Option Facts := c.entry?.map (·.2)

/-- The facts in the cache, if they are of the revision. -/
def fresh? (c : FactsCache) (revision : Nat) : Option Facts :=
  match c.entry? with
  | some (cached, facts) => if cached = revision then some facts else none
  | none => none

/-- Whether the facts of the revision must be compiled. -/
def isStale (c : FactsCache) (revision : Nat) : Bool := (c.fresh? revision).isNone

/-- The facts about the crossing, compiled only if the cache has none of its revision. -/
def lookup (c : FactsCache) (t : Topology) (probe : Probe) : Facts :=
  (c.fresh? t.revision).getD (.compile t probe)

/-- The cache that holds what `lookup` gives. -/
def refresh (c : FactsCache) (t : Topology) (probe : Probe) : FactsCache :=
  ⟨some (t.revision, c.lookup t probe)⟩

@[simp] theorem fresh?_refresh (c : FactsCache) (t : Topology) (probe : Probe) :
    (c.refresh t probe).fresh? t.revision = some (c.lookup t probe) := by
  simp [refresh, fresh?]

end FactsCache
end RightOfWay
