import RightOfWay.Crossing.Layout
import RightOfWay.Proofs.Attempts

/-!
# How topologies come about

A topology is made by the operations from the empty one (`Topology.Built`), and so are those that
layouts describe (`Layout.built_of_build?`).  Every fork in it is kept under its own identifier
(`Topology.Built.keyed`).

Opening or closing a lane finds everything as asked, or it changes elements of the crossing and
takes the revision up by one (`Topology.setLane_cases`, `Topology.revision_of_setLane`).  Even the
lane that is opened and closed again leaves its mark: revisions do not return.
-/

set_option autoImplicit false

namespace RightOfWay

theorem Fork.slot?_putSlot (f : Fork) (slot : Slot) :
    (f.putSlot slot).slot? slot.exit = (f.slot? slot.exit).map fun _ ↦ slot := by
  rw [slot?, slot?, putSlot]
  induction f.slots with
  | nil => rfl
  | cons s slots ih =>
    by_cases hs : s.exit = slot.exit
    · simp [hs]
    · simpa [hs] using ih

namespace Topology

/-- The topologies that the operations make. -/
inductive Built : Topology → Prop
  | empty : Built empty
  | addFork {t t' : Topology} {id : ForkId} {location forward : Vec} (ht : Built t)
      (h : t.addFork id location forward = .ok t') : Built t'
  | addExit {t t' : Topology} {id : ExitId} {location forward : Vec} (ht : Built t)
      (h : t.addExit id location forward = .ok t') : Built t'
  | connect {t t' : Topology} {fork : ForkId} {exit : ExitId} (ht : Built t)
      (h : t.connect fork exit = .ok t') : Built t'
  | connectAll {t : Topology} (ht : Built t) : Built t.connectAll
  | setLane {t : Topology} {fork : ForkId} {exit : ExitId} {active : Bool} {change : LaneChange}
      (ht : Built t) (h : t.setLane fork exit active = .ok change) : Built change.topology

/-- Every fork is kept under its own identifier. -/
def Keyed (t : Topology) : Prop := ∀ (id : ForkId) (f : Fork), t.forks[id]? = some f → f.id = id

/-- The topologies have the same elements. -/
structure SameElements (t t' : Topology) : Prop where
  forks : t'.forks = t.forks
  exits : t'.exits = t.exits
  lanes : t'.lanes = t.lanes
  kinds : t'.kinds = t.kinds

theorem SameElements.refl (t : Topology) : t.SameElements t := ⟨rfl, rfl, rfl, rfl⟩

variable {t : Topology} {fork : ForkId} {exit : ExitId} {active : Bool} {change : LaneChange}

/-! ## Opening and closing lanes -/

/-- What opening or closing a lane can come to. -/
theorem setLane_cases (h : t.setLane fork exit active = .ok change) :
    ∃ e f slot, t.exits[exit]? = some e ∧ t.forks[fork]? = some f ∧ f.slot? exit = some slot ∧
      ((slot.lane?.isSome = active ∧ change = ⟨t, slot.lane?, none⟩) ∨
        (active = true ∧ slot.lane? = none ∧ t.lanes[(Lane.joining f e).id]? = none ∧
          change = ⟨t.openLane f (.joining f e), some (Lane.joining f e).id,
            (Lane.joining f e).shape.notice?⟩) ∨
        (active = false ∧ ∃ lane, slot.lane? = some lane ∧
          change = ⟨t.closeLane f exit lane, none, none⟩)) := by
  rw [setLane] at h
  cases hexit : t.exits[exit]? with
  | none =>
    rw [hexit] at h
    cases h
  | some e =>
  cases hfork : t.forks[fork]? with
  | none =>
    rw [hexit, hfork] at h
    cases h
  | some f =>
  cases hslot : f.slot? exit with
  | none =>
    simp only [hexit, hfork, hslot] at h
    cases h
  | some slot =>
  refine ⟨e, f, slot, rfl, rfl, hslot, ?_⟩
  simp only [hexit, hfork, hslot] at h
  cases hlane : slot.lane? with
  | none =>
    cases active with
    | false =>
      simp only [hlane] at h
      cases h
      exact .inl ⟨rfl, rfl⟩
    | true =>
      simp only [hlane] at h
      cases hfree : t.lanes[(Lane.joining f e).id]? with
      | none =>
        rw [hfree] at h
        cases h
        exact .inr (.inl ⟨rfl, rfl, rfl, rfl⟩)
      | some taken =>
        rw [hfree] at h
        cases h
  | some lane =>
    simp only [hlane] at h
    cases active with
    | false =>
      cases h
      exact .inr (.inr ⟨rfl, lane, rfl, rfl⟩)
    | true =>
      cases h
      exact .inl ⟨rfl, rfl⟩

theorem not_sameElements_openLane {f : Fork} {lane : Lane} (h : t.lanes[lane.id]? = none) :
    ¬ t.SameElements (t.openLane f lane) := by
  intro hsame
  have hlane : (t.openLane f lane).lanes[lane.id]? = some lane :=
    Std.ExtTreeMap.getElem?_insert_self
  rw [hsame.lanes, h] at hlane
  cases hlane

theorem not_sameElements_closeLane {f : Fork} {slot : Slot} {lane : LaneId}
    (hfork : t.forks[f.id]? = some f) (hslot : f.slot? exit = some slot)
    (hlane : slot.lane? = some lane) : ¬ t.SameElements (t.closeLane f exit lane) := by
  intro hsame
  have hclosed : (t.closeLane f exit lane).forks[f.id]? = some (f.putSlot (.closed exit)) :=
    Std.ExtTreeMap.getElem?_insert_self
  rw [hsame.forks, hfork] at hclosed
  have hput : (f.putSlot (.closed exit)).slot? exit = (f.slot? exit).map fun _ ↦ .closed exit :=
    f.slot?_putSlot (.closed exit)
  rw [← Option.some.inj hclosed, hslot] at hput
  rw [Option.some.inj hput] at hlane
  cases hlane

/-- The revision goes up if elements change, and else nothing happens at all. -/
theorem revision_of_setLane (h : t.setLane fork exit active = .ok change) :
    change.topology = t ∨
      (change.topology.revision = t.revision + 1 ∧
        (t.Keyed → ¬ t.SameElements change.topology)) := by
  obtain ⟨e, f, slot, -, hfork, hslot, hsame | ⟨-, -, hfree, hopen⟩ | ⟨-, lane, hlane, hclose⟩⟩ :=
    setLane_cases h
  · exact .inl (congrArg LaneChange.topology hsame.2)
  · -- The lane was not there before.
    rw [hopen]
    exact .inr ⟨rfl, fun _ ↦ not_sameElements_openLane hfree⟩
  · -- The slot held a lane before, and the fork is where it was.
    rw [hclose]
    refine .inr ⟨rfl, fun hkeyed ↦ not_sameElements_closeLane ?_ hslot hlane⟩
    rw [hkeyed fork f hfork]
    exact hfork

/-! ## Forks -/

theorem addFork_eq_ok {t' : Topology} {id : ForkId} {location forward : Vec}
    (h : t.addFork id location forward = .ok t') :
    t.kinds[id.constant]? = none ∧ ∃ unit, t' = { t with
      forks := t.forks.insert id ⟨id, location, unit, []⟩
      kinds := t.kinds.insert id.constant .entry
      revision := t.revision + 1 } := by
  rw [addFork] at h
  split at h
  · cases h
  · rename_i hfresh
    obtain ⟨unit, -, rfl⟩ := exists_of_map_eq_ok h
    exact ⟨(getElem?_eq_none_iff _ _).2 hfresh, unit, rfl⟩

theorem addExit_eq_ok {t' : Topology} {id : ExitId} {location forward : Vec}
    (h : t.addExit id location forward = .ok t') :
    t.kinds[id.constant]? = none ∧ ∃ unit, t' = { t with
      exits := t.exits.insert id ⟨id, location, unit⟩
      kinds := t.kinds.insert id.constant .exit
      revision := t.revision + 1 } := by
  rw [addExit] at h
  split at h
  · cases h
  · rename_i hfresh
    obtain ⟨unit, -, rfl⟩ := exists_of_map_eq_ok h
    exact ⟨(getElem?_eq_none_iff _ _).2 hfresh, unit, rfl⟩

theorem connect_cases {t' : Topology} (h : t.connect fork exit = .ok t') :
    t' = t ∨ ∃ f, exit ∈ t.exits ∧ t.forks[fork]? = some f ∧ f.slot? exit = none ∧ t' = { t with
      forks := t.forks.insert fork (f.connect [exit])
      revision := t.revision + 1 } := by
  rw [connect] at h
  split at h
  · cases h
  rename_i hexit
  rw [Bool.not_eq_true, Bool.not_eq_false', Std.ExtTreeMap.contains_iff_mem] at hexit
  cases hfork : t.forks[fork]? with
  | none =>
    rw [hfork] at h
    cases h
  | some f =>
    rw [hfork] at h
    obtain rfl := Except.ok.inj h
    split
    · exact .inl rfl
    · rename_i hslot
      exact .inr ⟨f, hexit, rfl, Option.not_isSome_iff_eq_none.1 hslot, rfl⟩

theorem Keyed.insert {t' : Topology} {id : ForkId} (ht : t.Keyed) (f : Fork) (hid : f.id = id)
    (hforks : t'.forks = t.forks.insert id f) : t'.Keyed := by
  intro id' f' hf'
  rw [hforks] at hf'
  simp only [Std.ExtTreeMap.getElem?_insert, Std.LawfulEqCmp.compare_eq_iff_eq] at hf'
  by_cases heq : id = id'
  · rw [if_pos heq] at hf'
    cases hf'
    exact hid.trans heq
  · rw [if_neg heq] at hf'
    exact ht id' f' hf'

/-- The operations keep every fork under its own identifier. -/
theorem Built.keyed (h : t.Built) : t.Keyed := by
  induction h with
  | empty =>
    intro id f hf
    simp [Topology.empty] at hf
  | addFork _ h ih =>
    obtain ⟨-, unit, rfl⟩ := addFork_eq_ok h
    exact ih.insert ⟨_, _, unit, []⟩ rfl rfl
  | addExit _ h ih =>
    obtain ⟨-, unit, rfl⟩ := addExit_eq_ok h
    exact ih
  | connect _ h ih =>
    rcases connect_cases h with rfl | ⟨f, -, hf, -, rfl⟩
    · exact ih
    · exact ih.insert (f.connect _) (ih _ f hf) rfl
  | @connectAll t _ ih =>
    intro id f hf
    rw [Topology.connectAll, Std.ExtTreeMap.getElem?_map, Option.map_eq_some_iff] at hf
    obtain ⟨g, hg, rfl⟩ := hf
    exact ih id g hg
  | setLane _ h ih =>
    obtain ⟨e, f, slot, -, hfork, -, hsame | ⟨-, -, -, hopen⟩ | ⟨-, lane, -, hclose⟩⟩ :=
      setLane_cases h
    · rw [hsame.2]
      exact ih
    · rw [hopen]
      exact ih.insert (f.putSlot _) rfl rfl
    · rw [hclose]
      exact ih.insert (f.putSlot _) rfl rfl

/-! ## Operations in sequence -/

/-- A change that is asked for. -/
inductive Operation where
  | addFork (id : ForkId) (location forward : Vec)
  | addExit (id : ExitId) (location forward : Vec)
  | connect (fork : ForkId) (exit : ExitId)
  | connectAll
  | setLane (fork : ForkId) (exit : ExitId) (active : Bool)

/-- The topology after the operation.  One that fails changes nothing. -/
def perform (t : Topology) : Operation → Topology
  | .addFork id location forward => (t.addFork id location forward).toOption.getD t
  | .addExit id location forward => (t.addExit id location forward).toOption.getD t
  | .connect fork exit => (t.connect fork exit).toOption.getD t
  | .connectAll => t.connectAll
  | .setLane fork exit active =>
    ((t.setLane fork exit active).toOption.map LaneChange.topology).getD t

/-- What the operations make of the empty topology, one after the other. -/
def after (operations : List Operation) : Topology := operations.foldl perform empty

theorem after_append (operations later : List Operation) :
    after (operations ++ later) = later.foldl perform (after operations) :=
  List.foldl_append

theorem Built.perform (h : t.Built) (operation : Operation) : (t.perform operation).Built := by
  cases operation with
  | addFork id location forward =>
    rw [Topology.perform]
    cases hadd : t.addFork id location forward with
    | error e => exact h
    | ok t' => exact h.addFork hadd
  | addExit id location forward =>
    rw [Topology.perform]
    cases hadd : t.addExit id location forward with
    | error e => exact h
    | ok t' => exact h.addExit hadd
  | connect fork exit =>
    rw [Topology.perform]
    cases hconnect : t.connect fork exit with
    | error e => exact h
    | ok t' => exact h.connect hconnect
  | connectAll => exact h.connectAll
  | setLane fork exit active =>
    rw [Topology.perform]
    cases hset : t.setLane fork exit active with
    | error e => exact h
    | ok change => exact h.setLane hset

theorem built_after (operations : List Operation) : (after operations).Built := by
  have hrun : ∀ t : Topology, t.Built → (operations.foldl Topology.perform t).Built := by
    induction operations with
    | nil => exact fun t ht ↦ ht
    | cons operation operations ih => exact fun t ht ↦ ih _ (ht.perform operation)
  exact hrun empty .empty

end Topology

/-! ## Layouts -/

namespace Layout

variable {d : Layout}

theorem built_of_places? {t : Topology} (h : d.places? = .ok t) : t.Built := by
  obtain ⟨t₁, hforks, h⟩ := bind_eq_ok_iff.1 h
  obtain ⟨t₂, hexits, h⟩ := bind_eq_ok_iff.1 h
  cases h
  have ht₁ : t₁.Built := foldlM_induction (fun _ _ _ hadd ht ↦ ht.addFork hadd) hforks .empty
  exact .connectAll (foldlM_induction (fun _ _ _ hadd ht ↦ ht.addExit hadd) hexits ht₁)

theorem built_of_openLane? {draft draft' : Draft} {lane : ForkId × ExitId}
    (h : d.openLane? draft lane = .ok draft') (hdraft : draft.1.Built) : draft'.1.Built := by
  rw [openLane?] at h
  split at h
  · cases h
    exact hdraft
  · obtain ⟨change, hchange, rfl⟩ := exists_of_map_eq_ok h
    exact hdraft.setLane hchange

/-- The operations make the crossing that a layout describes. -/
theorem built_of_build? {draft : Draft} (h : d.build? = .ok draft) : draft.1.Built := by
  obtain ⟨t, hplaces, h⟩ := bind_eq_ok_iff.1 h
  exact foldlM_induction (P := fun draft : Draft ↦ draft.1.Built)
    (fun _ _ _ hopen ↦ built_of_openLane? hopen) h (built_of_places? hplaces)

end Layout
end RightOfWay
