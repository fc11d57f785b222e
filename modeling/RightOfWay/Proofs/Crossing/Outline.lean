import RightOfWay.Crossing.Facts
import RightOfWay.Proofs.Crossing.Elements

/-!
# The outline of a crossing

The facts about a crossing depend on its outline only: which forks and exits are registered, and
between which of them a lane is open.  In what order this came about does not show.

Lanes are the reason why this needs a proof.  Their records are made when they are opened and kept
from then on, so they could be out of date.  They are not: a place never changes once it is
registered, and every record is the one that its places give (`Topology.Built.joined`).  So
topologies of the same outline have the same lanes (`Topology.SameOutline.lanes_eq`), and the facts
list places and lanes in the order of their identifiers, not of their registration.
-/

set_option autoImplicit false

namespace RightOfWay

/-- The fork as it was registered, without the exits that can be reached. -/
def Fork.bare (f : Fork) : Fork := { f with slots := [] }

namespace Topology

/-- The lane from the fork to the exit is open. -/
def IsOpen (t : Topology) (fork : ForkId) (exit : ExitId) : Prop :=
  ∃ s, t.HasSlot fork s ∧ s.exit = exit ∧ s.active = true

/-- The topologies have the same places. -/
structure SamePlaces (t t' : Topology) : Prop where
  forks : ∀ id : ForkId, t.forks[id]?.map Fork.bare = t'.forks[id]?.map Fork.bare
  exits : t.exits = t'.exits

/-- The topologies have the same places, with lanes open between the same of them. -/
structure SameOutline (t t' : Topology) : Prop extends SamePlaces t t' where
  isOpen_iff : ∀ fork exit, t.IsOpen fork exit ↔ t'.IsOpen fork exit

/-- The record of the lane is the one that its places give. -/
def Joins (t : Topology) (lane : Lane) : Prop :=
  ∃ f e, t.forks[lane.fork]? = some f ∧ t.exits[lane.exit]? = some e ∧ lane = .joining f e

/-- All lanes are as their places give them. -/
def Joined (t : Topology) : Prop :=
  ∀ (id : LaneId) (lane : Lane), t.lanes[id]? = some lane → t.Joins lane

variable {t t' t'' : Topology} {fork : ForkId} {exit : ExitId} {f g : Fork} {e : Exit} {lane : Lane}

/-! ## Places stay -/

theorem SamePlaces.refl (t : Topology) : t.SamePlaces t := ⟨fun _ ↦ rfl, rfl⟩

theorem SamePlaces.symm (h : t.SamePlaces t') : t'.SamePlaces t :=
  ⟨fun id ↦ (h.forks id).symm, h.exits.symm⟩

theorem SamePlaces.trans (h : t.SamePlaces t') (h' : t'.SamePlaces t'') : t.SamePlaces t'' :=
  ⟨fun id ↦ (h.forks id).trans (h'.forks id), h.exits.trans h'.exits⟩

/-- New slots do not change the places. -/
theorem samePlaces_of_insert (hf : t.forks[fork]? = some f) (hbare : g.bare = f.bare)
    (hforks : t'.forks = t.forks.insert fork g) (hexits : t'.exits = t.exits) :
    t.SamePlaces t' := by
  refine ⟨fun id ↦ ?_, hexits.symm⟩
  rw [hforks, Std.ExtTreeMap.getElem?_insert]
  by_cases hid : compare fork id = .eq
  · rw [if_pos hid, ← Std.LawfulEqCmp.eq_of_compare hid, hf, Option.map_some, Option.map_some,
      hbare]
  · rw [if_neg hid]

theorem samePlaces_of_connect (h : t.connect fork exit = .ok t') : t.SamePlaces t' := by
  rcases connect_cases h with rfl | ⟨f, -, hf, -, rfl⟩
  · exact .refl _
  · exact samePlaces_of_insert (g := f.connect [exit]) hf rfl rfl rfl

theorem lanes_of_connect (h : t.connect fork exit = .ok t') : t'.lanes = t.lanes := by
  rcases connect_cases h with rfl | ⟨f, -, -, -, rfl⟩
  · rfl
  · rfl

theorem samePlaces_connectAll (t : Topology) : t.SamePlaces t.connectAll := by
  refine ⟨fun id ↦ ?_, rfl⟩
  rw [connectAll, Std.ExtTreeMap.getElem?_map, Option.map_map]
  rfl

theorem samePlaces_of_setLane (ht : t.Keyed) {active : Bool} {change : LaneChange}
    (h : t.setLane fork exit active = .ok change) : t.SamePlaces change.topology := by
  obtain ⟨e, f, slot, -, hf, -, hsame | ⟨-, -, -, hopen⟩ | ⟨-, id, -, hclose⟩⟩ := setLane_cases h
  · rw [hsame.2]
    exact .refl t
  · obtain rfl := ht fork f hf
    rw [hopen]
    exact samePlaces_of_insert (g := f.putSlot _) hf rfl rfl rfl
  · obtain rfl := ht fork f hf
    rw [hclose]
    exact samePlaces_of_insert (g := f.putSlot _) hf rfl rfl rfl

/-- The operation registers a place. -/
def Operation.Registers : Operation → Prop
  | .addFork .. | .addExit .. => True
  | .connect .. | .connectAll | .setLane .. => False

/-- Only a new place changes the places. -/
theorem Built.samePlaces_perform (ht : t.Built) {operation : Operation}
    (h : ¬ operation.Registers) : t.SamePlaces (t.perform operation) := by
  cases operation with
  | addFork | addExit => exact absurd trivial h
  | connect fork exit =>
    rw [Topology.perform]
    cases hconnect : t.connect fork exit with
    | error e => exact .refl t
    | ok t' => exact samePlaces_of_connect hconnect
  | connectAll => exact samePlaces_connectAll t
  | setLane fork exit active =>
    rw [Topology.perform]
    cases hset : t.setLane fork exit active with
    | error e => exact .refl t
    | ok change => exact samePlaces_of_setLane ht.keyed hset

theorem Built.samePlaces_foldl (ht : t.Built) {operations : List Operation}
    (h : ∀ operation ∈ operations, ¬ operation.Registers) :
    t.SamePlaces (operations.foldl Topology.perform t) := by
  induction operations generalizing t with
  | nil => exact .refl t
  | cons operation operations ih =>
    obtain ⟨hfirst, hrest⟩ := List.forall_mem_cons.1 h
    exact (ht.samePlaces_perform hfirst).trans (ih (ht.perform operation) hrest)

/-! ## Lanes are as their places give them -/

theorem Joins.congr (h : t.Joins lane) (hplaces : t.SamePlaces t') : t'.Joins lane := by
  obtain ⟨f, e, hf, he, hlane⟩ := h
  have hbare := hplaces.forks lane.fork
  rw [hf, Option.map_some, eq_comm, Option.map_eq_some_iff] at hbare
  obtain ⟨f', hf', hbare⟩ := hbare
  refine ⟨f', e, hf', hplaces.exits ▸ he, ?_⟩
  calc lane = .joining f.bare e := hlane
    _ = .joining f'.bare e := by rw [hbare]

/-- Places determine a lane. -/
theorem Joins.eq {lane' : Lane} (h : t.Joins lane) (h' : t.Joins lane')
    (hfork : lane.fork = lane'.fork) (hexit : lane.exit = lane'.exit) : lane = lane' := by
  obtain ⟨f, e, hf, he, hlane⟩ := h
  obtain ⟨f', e', hf', he', hlane'⟩ := h'
  rw [hfork, hf'] at hf
  rw [hexit, he'] at he
  cases hf
  cases he
  rw [hlane, hlane']

/-- **No record of a lane is out of date.** -/
theorem Built.joined (h : t.Built) : t.Joined := by
  induction h with
  | empty =>
    intro id lane hlane
    simp [Topology.empty] at hlane
  | addFork ht h ih =>
    -- open lanes run between known places, so the new one is not an end of theirs
    obtain ⟨hfresh, unit, rfl⟩ := addFork_eq_ok h
    intro id lane hlane
    obtain ⟨f, e, hf, he, hjoins⟩ := ih id lane hlane
    exact ⟨f, e, getElem?_insert_of_notMem (ht.consistent.notMem_forks hfresh) hf, he, hjoins⟩
  | addExit ht h ih =>
    obtain ⟨hfresh, unit, rfl⟩ := addExit_eq_ok h
    intro id lane hlane
    obtain ⟨f, e, hf, he, hjoins⟩ := ih id lane hlane
    exact ⟨f, e, hf, getElem?_insert_of_notMem (ht.consistent.notMem_exits hfresh) he, hjoins⟩
  | connect _ h ih =>
    intro id lane hlane
    rw [lanes_of_connect h] at hlane
    exact (ih id lane hlane).congr (samePlaces_of_connect h)
  | connectAll _ ih => exact fun id lane hlane ↦ (ih id lane hlane).congr (samePlaces_connectAll _)
  | @setLane t fork exit active change ht h ih =>
    have hplaces := samePlaces_of_setLane ht.keyed h
    intro id lane hlane
    refine Joins.congr ?_ hplaces
    obtain ⟨e, f, slot, he, hf, -, hsame | ⟨-, -, -, hopen⟩ | ⟨-, i, -, hclose⟩⟩ := setLane_cases h
    · rw [hsame.2] at hlane
      exact ih id lane hlane
    · obtain rfl := ht.keyed fork f hf
      obtain rfl := ht.consistent.exit_id exit e he
      rw [hopen] at hlane
      revert id lane
      exact forall_getElem?_insert ih ⟨f, e, hf, he, rfl⟩
    · rw [hclose, closeLane, Std.ExtTreeMap.getElem?_erase] at hlane
      split at hlane
      · cases hlane
      · exact ih id lane hlane

/-! ## Open lanes -/

theorem Consistent.isOpen_iff (h : t.Consistent) :
    t.IsOpen fork exit ↔ t.HasSlot fork (.opened exit (.between fork exit)) := by
  constructor
  · rintro ⟨s, hs, rfl, hactive⟩
    obtain ⟨id, hid⟩ := (h.active_iff hs).1 hactive
    rw [h.eq_opened hs hid] at hs
    rwa [← (h.exists_lane _ _ _ hs).1]
  · exact fun hs ↦ ⟨_, hs, rfl, rfl⟩

theorem Consistent.isOpen_iff_mem (h : t.Consistent) :
    t.IsOpen fork exit ↔ (fork, exit) ∈ t.lanes.values.map fun lane ↦ (lane.fork, lane.exit) := by
  rw [h.isOpen_iff, List.mem_map]
  constructor
  · intro hs
    obtain ⟨-, lane, hlane, rfl, rfl⟩ := h.exists_lane _ _ _ hs
    exact ⟨lane, mem_values.2 ⟨_, hlane⟩, rfl⟩
  · rintro ⟨lane, hlane, heq⟩
    obtain ⟨rfl, rfl⟩ := Prod.mk.inj heq
    obtain ⟨id, hid⟩ := mem_values.1 hlane
    have hs := h.hasSlot id lane hid
    rwa [(h.exists_lane _ _ _ hs).1] at hs

/-- The slot of a lane that has been opened or closed is as it was asked for, and no other one has
changed. -/
theorem Consistent.hasSlot_setLane (h : t.Consistent) {active : Bool} {change : LaneChange}
    (hset : t.setLane fork exit active = .ok change) :
    ∃ s : Slot, s.exit = exit ∧ s.active = active ∧ ∀ fork' s', change.topology.HasSlot fork' s' ↔
      (t.HasSlot fork' s' ∧ ¬ (fork = fork' ∧ s'.exit = exit)) ∨ fork = fork' ∧ s' = s := by
  obtain ⟨e, f, slot, he, hf, hslot, hcases⟩ := setLane_cases hset
  obtain rfl := h.keyed fork f hf
  obtain rfl := h.exit_id exit e he
  obtain ⟨hmem, hexit⟩ := (Fork.slot?_eq_some (h.nodup _ f hf)).1 hslot
  have hs : t.HasSlot f.id slot := ⟨f, hf, hmem⟩
  rcases hcases with ⟨hactive, hsame⟩ | ⟨rfl, -, -, hopen⟩ | ⟨rfl, id, -, hclose⟩
  · refine ⟨slot, hexit, ?_, fun fork' s' ↦ ?_⟩
    · rw [← hactive, Bool.eq_iff_iff, h.active_iff hs, Option.isSome_iff_exists]
    · rw [hsame]
      constructor
      · intro hs'
        by_cases hpair : f.id = fork' ∧ s'.exit = e.id
        · exact .inr ⟨hpair.1, h.slot_unique hs' (hpair.1 ▸ hs) (hpair.2.trans hexit.symm)⟩
        · exact .inl ⟨hs', hpair⟩
      · rintro (⟨hs', -⟩ | ⟨rfl, rfl⟩)
        · exact hs'
        · exact hs
  · refine ⟨.opened e.id (Lane.joining f e).id, rfl, rfl, fun fork' s' ↦ ?_⟩
    rw [hopen]
    exact hasSlot_putSlot (.opened e.id (Lane.joining f e).id) hf hs hexit rfl
  · refine ⟨.closed e.id, rfl, rfl, fun fork' s' ↦ ?_⟩
    rw [hclose]
    exact hasSlot_putSlot (.closed e.id) hf hs hexit rfl

theorem Consistent.isOpen_setLane (h : t.Consistent) {active : Bool} {change : LaneChange}
    (hset : t.setLane fork exit active = .ok change) (fork' : ForkId) (exit' : ExitId) :
    change.topology.IsOpen fork' exit' ↔
      if fork = fork' ∧ exit = exit' then active = true else t.IsOpen fork' exit' := by
  obtain ⟨s, hexit, hactive, hslot⟩ := h.hasSlot_setLane hset
  simp only [IsOpen, hslot]
  by_cases hpair : fork = fork' ∧ exit = exit'
  · obtain ⟨rfl, rfl⟩ := hpair
    rw [if_pos ⟨rfl, rfl⟩]
    constructor
    · rintro ⟨s', ⟨-, hne⟩ | ⟨-, rfl⟩, hexit', hactive'⟩
      · exact absurd ⟨rfl, hexit'⟩ hne
      · rwa [← hactive]
    · rintro rfl
      exact ⟨s, .inr ⟨rfl, rfl⟩, hexit, hactive⟩
  · rw [if_neg hpair]
    constructor
    · rintro ⟨s', ⟨hs', -⟩ | ⟨rfl, rfl⟩, rfl, hactive'⟩
      · exact ⟨s', hs', rfl, hactive'⟩
      · exact absurd ⟨rfl, hexit.symm⟩ hpair
    · rintro ⟨s', hs', rfl, hactive'⟩
      exact ⟨s', .inl ⟨hs', fun hsame ↦ hpair ⟨hsame.1, hsame.2.symm⟩⟩, rfl, hactive'⟩

/-- A lane that is open can be closed and opened again. -/
theorem Consistent.exists_reopen (h : t.Consistent) (hopen : t.IsOpen fork exit) :
    ∃ closing reopening, t.setLane fork exit false = .ok closing ∧
      closing.topology.setLane fork exit true = .ok reopening := by
  rw [h.isOpen_iff] at hopen
  obtain ⟨f, hf, hmem⟩ := id hopen
  obtain ⟨e, he⟩ : ∃ e, t.exits[exit]? = some e := ⟨_, getElem?_pos _ _ (h.exit_mem _ _ hopen)⟩
  have hslot : f.slot? exit = some (.opened exit (.between fork exit)) :=
    (Fork.slot?_eq_some (h.nodup fork f hf)).2 ⟨hmem, rfl⟩
  have hclose : t.setLane fork exit false =
      .ok ⟨t.closeLane f exit (.between fork exit), none, none⟩ := by
    rw [Topology.setLane]
    simp only [he, hf, hslot, Slot.opened]
  obtain ⟨s, rfl, hclosed, hslots⟩ := h.hasSlot_setLane hclose
  have ht' := h.setLane hclose
  have hs := (hslots fork s).2 (.inr ⟨rfl, rfl⟩)
  have hnone : s.lane? = none := by
    rw [Option.eq_none_iff_forall_ne_some]
    intro id hid
    rw [(ht'.active_iff hs).2 ⟨id, hid⟩] at hclosed
    cases hclosed
  obtain ⟨reopening, hreopen⟩ := ht'.setLane_of_closed hs hnone
  refine ⟨_, reopening, hclose, hreopen.trans ?_⟩
  -- the name of the lane is free again
  have hfree : (t.closeLane f s.exit (.between fork s.exit)).lanes[Ident.between fork s.exit]? =
      none := Std.ExtTreeMap.getElem?_erase_self
  rw [hfree]

/-- Closing an open lane and opening it again leads back to the same outline. -/
theorem Built.reopen (ht : t.Built) (hopen : t.IsOpen fork exit) :
    ¬ (t.perform (.setLane fork exit false)).IsOpen fork exit ∧
      t.SameOutline ((t.perform (.setLane fork exit false)).perform (.setLane fork exit true)) := by
  obtain ⟨closing, reopening, hclose, hreopen⟩ := ht.consistent.exists_reopen hopen
  have hclosing : t.perform (.setLane fork exit false) = closing.topology := by
    rw [Topology.perform, hclose]
    rfl
  have hreopening : closing.topology.perform (.setLane fork exit true) = reopening.topology := by
    rw [Topology.perform, hreopen]
    rfl
  have ht' : closing.topology.Built := ht.setLane hclose
  rw [hclosing, hreopening]
  refine ⟨by simp [ht.consistent.isOpen_setLane hclose], ?_, fun fork' exit' ↦ ?_⟩
  · exact (samePlaces_of_setLane ht.keyed hclose).trans (samePlaces_of_setLane ht'.keyed hreopen)
  · rw [ht'.consistent.isOpen_setLane hreopen, ht.consistent.isOpen_setLane hclose]
    split
    · rename_i hpair
      obtain ⟨rfl, rfl⟩ := hpair
      exact iff_of_true hopen rfl
    · exact Iff.rfl

namespace SameOutline

theorem symm (h : t.SameOutline t') : t'.SameOutline t :=
  ⟨h.toSamePlaces.symm, fun fork exit ↦ (h.isOpen_iff fork exit).symm⟩

theorem getElem?_lanes (h : t.SameOutline t') (ht : t.Built) (ht' : t'.Built) {id : LaneId}
    (hlane : t.lanes[id]? = some lane) : t'.lanes[id]? = some lane := by
  have hs := ht.consistent.hasSlot id lane hlane
  have hid := (ht.consistent.exists_lane _ _ _ hs).1
  have hopen : t.IsOpen lane.fork lane.exit := ⟨_, hs, rfl, rfl⟩
  rw [h.isOpen_iff, ht'.consistent.isOpen_iff, ← hid] at hopen
  obtain ⟨-, lane', hlane', hfork, hexit⟩ := ht'.consistent.exists_lane _ _ _ hopen
  rw [hlane', ((ht.joined id lane hlane).congr h.toSamePlaces).eq (ht'.joined id lane' hlane')
    hfork.symm hexit.symm]

/-- Topologies of the same outline have the same lanes. -/
theorem lanes_eq (h : t.SameOutline t') (ht : t.Built) (ht' : t'.Built) : t.lanes = t'.lanes :=
  Std.ExtTreeMap.ext_getElem? fun _ ↦ Option.ext fun _ ↦
    ⟨h.getElem?_lanes ht ht', h.symm.getElem?_lanes ht' ht⟩

end SameOutline
end Topology

/-! ## Facts -/

namespace Facts

/-- Slots do not matter to which fork is to the right of which. -/
theorem ofForks_map_bare (fs : List Fork) : ofForks (fs.map Fork.bare) = ofForks fs := by
  induction fs with
  | nil => rfl
  | cons f fs ih =>
    have hright : ∀ g : Fork, rightOf f.bare g.bare = rightOf f g := fun _ ↦ rfl
    simp only [List.map_cons, ofForks, List.flatMap_map, hright, ih]

theorem compile_eq_of_sameOutline {t t' : Topology} (h : t.SameOutline t') (ht : t.Built)
    (ht' : t'.Built) (probe : Probe) : compile t probe = compile t' probe := by
  have hforks : ofForks t.forks.values = ofForks t'.forks.values := by
    rw [← ofForks_map_bare, map_values_congr h.forks, ofForks_map_bare]
  rw [compile, compile, hforks, h.lanes_eq ht ht']

end Facts

/-- **The facts about a crossing depend on its outline, and not on how this came about.**  Take any
two lists of operations, successful or not, that end with the same forks and exits, and with lanes
open between the same of them.  Then the facts are the same, atom for atom and letter for letter.
In particular a lane that is closed and opened again gives the facts from before. -/
theorem compile_after (operations : List Topology.Operation) (probe : Probe) :
    let facts := Facts.compile (.after operations) probe
    (∀ operations', (Topology.after operations).SameOutline (.after operations') →
      (Facts.compile (.after operations') probe).atoms = facts.atoms ∧
      (Facts.compile (.after operations') probe).text = facts.text) ∧
    ∀ fork exit, (Topology.after operations).IsOpen fork exit →
      ¬ (Topology.after (operations ++ [.setLane fork exit false])).IsOpen fork exit ∧
      Facts.compile (.after (operations ++ [.setLane fork exit false, .setLane fork exit true]))
        probe = facts := by
  intro facts
  have hbuilt := Topology.built_after
  refine ⟨fun operations' h ↦ ?_, fun fork exit hopen ↦ ?_⟩
  · have hfacts := Facts.compile_eq_of_sameOutline h (hbuilt _) (hbuilt _) probe
    exact ⟨congrArg Facts.atoms hfacts.symm, congrArg Facts.text hfacts.symm⟩
  · have hreopen := (hbuilt operations).reopen hopen
    have hagain := Facts.compile_eq_of_sameOutline hreopen.2 (hbuilt _)
      (((hbuilt _).perform _).perform _) probe
    rw [Topology.after_append, Topology.after_append]
    exact ⟨hreopen.1, hagain.symm⟩

namespace Bend

def farm : ForkId := ⟨"farm", by decide⟩

def mill : ExitId := ⟨"mill", by decide⟩

def church : ExitId := ⟨"church", by decide⟩

def places : List Topology.Operation :=
  [.addFork farm ⟨-1000, 0, 0⟩ ⟨1, 0, 0⟩, .addExit mill ⟨1000, 0, 0⟩ ⟨1, 0, 0⟩,
    .addExit church ⟨0, 1000, 0⟩ ⟨0, 1, 0⟩]

/-- The exits are connected in order, and one lane is opened. -/
def direct : List Topology.Operation := [.connectAll, .setLane farm mill true]

/-- The exits are connected the other way around, the other lane is open for a while, and a lane
that nothing leads to is asked for. -/
def roundabout : List Topology.Operation :=
  [.connect farm church, .setLane farm mill true, .setLane farm church true, .connect farm mill,
    .setLane farm mill true, .setLane farm church false]

theorem sameOutline :
    (Topology.after (places ++ direct)).SameOutline (.after (places ++ roundabout)) := by
  have hplaces : ∀ operations ∈ [direct, roundabout],
      (Topology.after places).SamePlaces (.after (places ++ operations)) := by
    intro operations hmem
    rw [Topology.after_append]
    refine (Topology.built_after places).samePlaces_foldl ?_
    revert operations
    simp [direct, roundabout, Topology.Operation.Registers]
  refine ⟨(hplaces direct (by simp)).symm.trans (hplaces roundabout (by simp)), fun fork exit ↦ ?_⟩
  have hopen : ∀ operations ∈ [direct, roundabout],
      ((Topology.after (places ++ operations)).lanes.values.map fun lane ↦ (lane.fork, lane.exit)) =
        [(farm, mill)] := by
    decide +kernel
  rw [(Topology.built_after _).consistent.isOpen_iff_mem, hopen direct (by simp),
    (Topology.built_after _).consistent.isOpen_iff_mem, hopen roundabout (by simp)]

end Bend

/-- Slots in another order and a lane that was open for a while do not show in the facts. -/
theorem compile_after_roundabout :
    (Topology.after (Bend.places ++ Bend.direct)).SameOutline
        (.after (Bend.places ++ Bend.roundabout)) ∧
      (Topology.after (Bend.places ++ Bend.direct)).IsOpen Bend.farm Bend.mill ∧
      ∀ probe, (Facts.compile (.after (Bend.places ++ Bend.roundabout)) probe).text =
        (Facts.compile (.after (Bend.places ++ Bend.direct)) probe).text := by
  refine ⟨Bend.sameOutline, ?_, fun probe ↦ ((compile_after _ probe).1 _ Bend.sameOutline).2⟩
  rw [(Topology.built_after _).consistent.isOpen_iff_mem]
  decide +kernel

end RightOfWay
