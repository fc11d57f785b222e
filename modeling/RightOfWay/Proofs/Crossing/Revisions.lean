import RightOfWay.Proofs.Crossing.InPlace
import RightOfWay.Proofs.Crossing.Outline

/-!
# Revisions

What an operation on a topology changes, and how the revision tells.

* An operation that succeeds changes nothing, or it changes elements and takes the revision up
  (`Topology.Built.attempt_cases`).  So after any operations the revision is as it was only if
  everything is (`Topology.Built.foldl_perform`).
* `Topology.DiffersAt` says what opening or closing a lane may change: a slot, a lane and a constant
  (`Topology.Consistent.differsAt_setLane`).
* What has been done need not be done again (`Topology.connect_again`, `Topology.connectAll_again`,
  `Topology.Consistent.setLane_again`).
-/

set_option autoImplicit false

namespace RightOfWay

/-! ## Connected forks -/

namespace Fork

variable {f : Fork} {exit : ExitId} {exits : List ExitId}

theorem unconnected_connect (f : Fork) (exits : List ExitId) :
    (f.connect exits).unconnected exits = [] := by
  refine List.eq_nil_iff_forall_not_mem.2 fun exit hexit ↦ ?_
  obtain ⟨hmem, hnew⟩ := mem_unconnected.1 hexit
  by_cases hold : exit ∈ f.slots.map Slot.exit
  · exact hnew (by simp [connect, hold])
  · exact hnew (List.mem_map.2 ⟨.closed exit,
      mem_connect.2 (.inr ⟨mem_unconnected.2 ⟨hmem, hold⟩, rfl⟩), rfl⟩)

theorem connect_eq_self_iff : f.connect exits = f ↔ f.unconnected exits = [] := by
  constructor
  · intro h
    have hslots := congrArg Fork.slots h
    simpa [connect] using hslots
  · intro h
    rw [connect, h]
    simp

end Fork

namespace Topology

variable {t t' : Topology} {fork : ForkId} {exit : ExitId} {active : Bool} {change : LaneChange}

/-! ## New slots -/

theorem connect_of_slot {f : Fork} (hexit : exit ∈ t.exits) (hf : t.forks[fork]? = some f)
    (hslot : (f.slot? exit).isSome = true) : t.connect fork exit = .ok t := by
  rw [connect, if_neg (by simpa using hexit), hf]
  exact congrArg _ (if_pos hslot)

/-- **An exit that has been connected is connected.** -/
theorem connect_again (h : t.connect fork exit = .ok t') : t'.connect fork exit = .ok t' := by
  rcases connect_cases h with rfl | ⟨f, hexit, -, -, rfl⟩
  · exact h
  · refine connect_of_slot (f := f.connect [exit]) hexit Std.ExtTreeMap.getElem?_insert_self ?_
    exact Fork.unconnected_singleton_eq_nil_iff.1 (f.unconnected_connect [exit])

theorem connectAll_of_unconnected
    (h : ∀ (id : ForkId) (f : Fork), t.forks[id]? = some f → f.unconnected t.exits.keys = []) :
    t.connectAll = t := by
  have hforks : t.forks.map (fun _ f ↦ f.connect t.exits.keys) = t.forks := by
    refine Std.ExtTreeMap.ext_getElem? fun id ↦ ?_
    rw [Std.ExtTreeMap.getElem?_map]
    cases hf : t.forks[id]? with
    | none => rfl
    | some f => exact congrArg some (Fork.connect_eq_self_iff.2 (h id f hf))
  have hnew : (t.forks.values.flatMap fun f ↦ f.unconnected t.exits.keys) = [] := by
    refine List.flatMap_eq_nil_iff.2 fun f hf ↦ ?_
    obtain ⟨id, hid⟩ := mem_values.1 hf
    exact h id f hid
  simp only [connectAll, hforks, hnew, List.length_nil, Nat.add_zero]

theorem connectAll_cases (t : Topology) : t.connectAll = t ∨
    t.revision < t.connectAll.revision ∧ t.connectAll.forks ≠ t.forks := by
  by_cases h : ∀ (id : ForkId) (f : Fork), t.forks[id]? = some f → f.unconnected t.exits.keys = []
  · exact .inl (connectAll_of_unconnected h)
  · push Not at h
    obtain ⟨id, f, hf, hnew⟩ := h
    refine .inr ⟨Nat.lt_add_of_pos_right (List.length_pos_iff.2 fun hnil ↦ hnew ?_),
      fun hforks ↦ hnew ?_⟩
    · exact List.flatMap_eq_nil_iff.1 hnil f (mem_values.2 ⟨id, hf⟩)
    · have hsame : t.connectAll.forks[id]? = some (f.connect t.exits.keys) := by
        rw [connectAll, Std.ExtTreeMap.getElem?_map, hf]
        rfl
      rw [hforks, hf] at hsame
      exact Fork.connect_eq_self_iff.1 (Option.some.inj hsame).symm

/-- **Where all exits have been connected to all forks, they are.** -/
theorem connectAll_again (t : Topology) : t.connectAll.connectAll = t.connectAll := by
  refine connectAll_of_unconnected fun id f hf ↦ ?_
  rw [connectAll, Std.ExtTreeMap.getElem?_map, Option.map_eq_some_iff] at hf
  obtain ⟨g, -, rfl⟩ := hf
  exact g.unconnected_connect _

/-! ## Lanes -/

/-- The topologies differ in the slot of the fork for the exit, the lane between them and the
constant of this lane at most. -/
structure DiffersAt (t t' : Topology) (fork : ForkId) (exit : ExitId) : Prop where
  exits : t'.exits = t.exits
  forks : ∀ id : ForkId, id ≠ fork → t'.forks[id]? = t.forks[id]?
  /-- The fork has its slots in the same order, and all but one are the same. -/
  slots : ∃ f slots, t.forks[fork]? = some f ∧ t'.forks[fork]? = some { f with slots } ∧
    f.slots.Forall₂ (fun s s' ↦ s'.exit = s.exit ∧ (s.exit ≠ exit → s' = s)) slots
  lanes : ∀ id : LaneId, id ≠ .between fork exit → t'.lanes[id]? = t.lanes[id]?
  kinds : ∀ c : String, c ≠ (Ident.between fork exit).constant → t'.kinds[c]? = t.kinds[c]?

theorem DiffersAt.refl {f : Fork} (hf : t.forks[fork]? = some f) : t.DiffersAt t fork exit where
  exits := rfl
  forks _ _ := rfl
  slots := ⟨f, f.slots, hf, hf, List.forall₂_same.2 fun _ _ ↦ ⟨rfl, fun _ ↦ rfl⟩⟩
  lanes _ _ := rfl
  kinds _ _ := rfl

theorem differsAt_of_putSlot {f : Fork} (slot : Slot) (hf : t.forks[fork]? = some f)
    (hexits : t'.exits = t.exits) (hforks : t'.forks = t.forks.insert fork (f.putSlot slot))
    (hlanes : ∀ id : LaneId, id ≠ .between fork slot.exit → t'.lanes[id]? = t.lanes[id]?)
    (hkinds : ∀ c : String, c ≠ (Ident.between fork slot.exit).constant →
      t'.kinds[c]? = t.kinds[c]?) : t.DiffersAt t' fork slot.exit where
  exits := hexits
  forks id hid := by
    rw [hforks, Std.ExtTreeMap.getElem?_insert, if_neg]
    rw [Std.LawfulEqCmp.compare_eq_iff_eq]
    exact hid.symm
  slots := by
    refine ⟨f, (f.putSlot slot).slots, hf, ?_, ?_⟩
    · rw [hforks]
      exact Std.ExtTreeMap.getElem?_insert_self
    · refine List.forall₂_map_right_iff.2 (List.forall₂_same.2 fun s _ ↦ ?_)
      by_cases hs : s.exit = slot.exit
      · rw [if_pos hs]
        exact ⟨hs.symm, fun hne ↦ absurd hs hne⟩
      · rw [if_neg hs]
        exact ⟨rfl, fun _ ↦ rfl⟩
  lanes := hlanes
  kinds := hkinds

/-- **A lane that is opened or closed leaves all others alone.** -/
theorem Consistent.differsAt_setLane (ht : t.Consistent)
    (h : t.setLane fork exit active = .ok change) : t.DiffersAt change.topology fork exit := by
  obtain ⟨e, f, slot, he, hf, hslot, hcases⟩ := setLane_cases h
  obtain rfl := ht.keyed fork f hf
  obtain rfl := ht.exit_id exit e he
  obtain ⟨hmem, hexit⟩ := (Fork.slot?_eq_some (ht.nodup _ f hf)).1 hslot
  rcases hcases with ⟨-, rfl⟩ | ⟨-, -, -, rfl⟩ | ⟨-, id, hid, rfl⟩
  · exact .refl hf
  · refine differsAt_of_putSlot (.opened e.id _) hf rfl rfl (fun id hid ↦ ?_) fun c hc ↦ ?_
    · exact (Std.ExtTreeMap.getElem?_insert).trans
        (if_neg fun heq ↦ hid (Std.LawfulEqCmp.eq_of_compare heq).symm)
    · exact (Std.ExtTreeMap.getElem?_insert).trans
        (if_neg fun heq ↦ hc (Std.LawfulEqCmp.eq_of_compare heq).symm)
  · have hopened : t.HasSlot f.id (.opened e.id id) := by
      rw [← hexit, ← ht.eq_opened ⟨f, hf, hmem⟩ hid]
      exact ⟨f, hf, hmem⟩
    obtain ⟨rfl, -⟩ := ht.exists_lane _ _ _ hopened
    refine differsAt_of_putSlot (.closed e.id) hf rfl rfl (fun id hid ↦ ?_) fun c hc ↦ ?_
    · exact (Std.ExtTreeMap.getElem?_erase).trans
        (if_neg fun heq ↦ hid (Std.LawfulEqCmp.eq_of_compare heq).symm)
    · exact (Std.ExtTreeMap.getElem?_erase).trans
        (if_neg fun heq ↦ hc (Std.LawfulEqCmp.eq_of_compare heq).symm)

theorem setLane_of_slot {e : Exit} {f : Fork} (slot : Slot) (he : t.exits[exit]? = some e)
    (hf : t.forks[fork]? = some f) (hslot : f.slot? exit = some slot)
    (hactive : slot.lane?.isSome = active) :
    t.setLane fork exit active = .ok ⟨t, slot.lane?, none⟩ := by
  simp only [setLane, he, hf, hslot]
  cases hlane : slot.lane? with
  | none =>
    rw [hlane] at hactive
    cases hactive
    rfl
  | some id =>
    rw [hlane] at hactive
    cases hactive
    rfl

/-- **A lane that has been opened or closed is open or closed**, and it is the same one. -/
theorem Consistent.setLane_again (ht : t.Consistent)
    (h : t.setLane fork exit active = .ok change) :
    change.topology.setLane fork exit active = .ok ⟨change.topology, change.lane?, none⟩ := by
  obtain ⟨e, f, slot, he, hf, hslot, hcases⟩ := setLane_cases h
  obtain rfl := ht.keyed fork f hf
  obtain rfl := ht.exit_id exit e he
  have hput : ∀ s : Slot, s.exit = e.id → (f.putSlot s).slot? e.id = some s := by
    rintro s hs
    rw [← hs, Fork.slot?_putSlot, hs, hslot]
    rfl
  rcases hcases with ⟨hactive, rfl⟩ | ⟨rfl, -, -, rfl⟩ | ⟨rfl, id, -, rfl⟩
  · exact setLane_of_slot slot he hf hslot hactive
  · exact setLane_of_slot (.opened e.id _) he Std.ExtTreeMap.getElem?_insert_self
      (hput _ rfl) rfl
  · exact setLane_of_slot (.closed e.id) he Std.ExtTreeMap.getElem?_insert_self
      (hput _ rfl) rfl

/-! ## Operations -/

variable {operation : Operation}

/-- Consistent topologies with the same forks, exits and lanes have the same index. -/
theorem Consistent.sameElements (ht : t.Consistent) (ht' : t'.Consistent)
    (hforks : t'.forks = t.forks) (hexits : t'.exits = t.exits) (hlanes : t'.lanes = t.lanes) :
    t.SameElements t' := by
  refine ⟨hforks, hexits, hlanes, Std.ExtTreeMap.ext_getElem? fun c ↦ Option.ext fun kind ↦ ?_⟩
  have hregisters : t'.Registers kind c ↔ t.Registers kind c := by
    cases kind <;> simp only [Registers, hforks, hexits, hlanes]
  exact (ht'.kinds c kind).trans (hregisters.trans (ht.kinds c kind).symm)

theorem Built.of_attempt (ht : t.Built) (h : t.attempt operation = .ok t') : t'.Built := by
  have hperform := ht.perform operation
  rw [perform_eq, h] at hperform
  exact hperform

/-- **An operation changes elements and takes the revision up, or it changes nothing.** -/
theorem Built.attempt_cases (ht : t.Built) (h : t.attempt operation = .ok t') :
    t' = t ∨ t.revision < t'.revision ∧
      ¬ (t'.forks = t.forks ∧ t'.exits = t.exits ∧ t'.lanes = t.lanes) := by
  cases operation with
  | addFork id location forward =>
    obtain ⟨hfresh, unit, rfl⟩ := addFork_eq_ok h
    refine .inr ⟨Nat.lt_succ_self _, fun ⟨hforks, _⟩ ↦ ht.consistent.notMem_forks hfresh ?_⟩
    rw [← hforks]
    exact Std.ExtTreeMap.mem_insert_self
  | addExit id location forward =>
    obtain ⟨hfresh, unit, rfl⟩ := addExit_eq_ok h
    refine .inr ⟨Nat.lt_succ_self _, fun ⟨_, hexits, _⟩ ↦ ht.consistent.notMem_exits hfresh ?_⟩
    rw [← hexits]
    exact Std.ExtTreeMap.mem_insert_self
  | connect fork exit =>
    rcases connect_cases h with rfl | ⟨f, -, hf, hslot, rfl⟩
    · exact .inl rfl
    · -- if the forks were the same, the fork would have had the slot before
      refine .inr ⟨Nat.lt_succ_self _, fun ⟨hforks, _⟩ ↦ ?_⟩
      have hsame : (t.forks.insert fork (f.connect [exit]))[fork]? = some (f.connect [exit]) :=
        Std.ExtTreeMap.getElem?_insert_self
      dsimp only at hforks
      rw [hforks, hf, Option.some_inj, eq_comm, Fork.connect_eq_self_iff,
        Fork.unconnected_singleton_eq_nil_iff, hslot] at hsame
      cases hsame
  | connectAll =>
    cases h
    exact t.connectAll_cases.imp_right fun ⟨hlt, hforks⟩ ↦ ⟨hlt, fun hsame ↦ hforks hsame.1⟩
  | setLane fork exit active =>
    obtain ⟨change, hchange, rfl⟩ := exists_of_map_eq_ok h
    refine (revision_of_setLane hchange).imp_right fun ⟨hnext, hsame⟩ ↦ ⟨?_, ?_⟩
    · rw [hnext]
      exact Nat.lt_succ_self _
    · rintro ⟨hforks, hexits, hlanes⟩
      exact hsame ht.keyed (ht.consistent.sameElements (ht.of_attempt h).consistent hforks hexits
        hlanes)

/-- In a run, the revision is as it was only where everything is. -/
theorem Built.foldl_perform (ht : t.Built) (operations : List Operation) :
    operations.foldl Topology.perform t = t ∨
      t.revision < (operations.foldl Topology.perform t).revision := by
  induction operations generalizing t with
  | nil => exact .inl rfl
  | cons operation operations ih =>
    have hnext : t.perform operation = t ∨ t.revision < (t.perform operation).revision := by
      rw [perform_eq]
      cases h : t.attempt operation with
      | error e => exact .inl rfl
      | ok t' => exact (ht.attempt_cases h).imp_right And.left
    rw [List.foldl_cons]
    rcases hnext with hsame | hlt
    · rw [hsame]
      exact ih ht
    · rcases ih (ht.perform operation) with hrest | hrest
      · rw [hrest]
        exact .inr hlt
      · exact .inr (hlt.trans hrest)

/-! ## Summary -/

/-- **The revision is exact, and operations are all or nothing.**  Take any topology that
operations have made.

* An operation that fails has not written anything when it does.  One that succeeds has not either,
  or it has changed forks, exits or lanes (a fork changes with its slots) and taken the revision up.
  After any further operations, the revision is therefore what it was only if everything is.
* To open or close a lane changes one slot of one fork, the lane between its ends and the constant
  of this lane at most, apart from the revision.
* What has just been connected, opened or closed can be so again, which changes nothing. -/
theorem revision_exact (operations : List Operation) :
    let t := after operations
    (∀ operation e t', operation.edit.run t = .error e t' →
      t.attempt operation = .error e ∧ t.perform operation = t ∧ t' = t) ∧
    (∀ operation t', operation.edit.run t = .ok () t' →
      t.attempt operation = .ok t' ∧ t.perform operation = t' ∧
      (t' = t ∨ t.revision < t'.revision ∧
        ¬ (t'.forks = t.forks ∧ t'.exits = t.exits ∧ t'.lanes = t.lanes))) ∧
    (∀ further, (after (operations ++ further)).revision = t.revision ↔
      after (operations ++ further) = t) ∧
    (∀ fork exit active change, t.setLane fork exit active = .ok change →
      t.DiffersAt change.topology fork exit ∧
      change.topology.setLane fork exit active = .ok ⟨change.topology, change.lane?, none⟩) ∧
    (∀ fork exit t', t.connect fork exit = .ok t' → t'.connect fork exit = .ok t') ∧
    t.connectAll.connectAll = t.connectAll := by
  intro t
  have ht : t.Built := built_after operations
  refine ⟨fun operation e t' h ↦ ?_, fun operation t' h ↦ ?_, fun further ↦ ?_,
    fun _ _ _ _ h ↦ ⟨ht.consistent.differsAt_setLane h, ht.consistent.setLane_again h⟩,
    fun _ _ _ ↦ connect_again, t.connectAll_again⟩
  · obtain ⟨hattempt, hsame⟩ := ht.consistent.run_eq_error_iff.1 h
    rw [perform_eq, hattempt]
    exact ⟨rfl, rfl, hsame⟩
  · have hattempt := ht.consistent.run_eq_ok_iff.1 h
    refine ⟨hattempt, ?_, ht.attempt_cases hattempt⟩
    rw [perform_eq, hattempt]
    rfl
  · rw [after_append]
    refine ⟨fun hrevision ↦ (ht.foldl_perform further).resolve_right fun hlt ↦ ?_, congrArg _⟩
    rw [hrevision] at hlt
    exact lt_irrefl _ hlt

/-- At a bend, an exit is connected once and for all and a lane is opened once and for all.  A fork
of the same name is refused. -/
theorem revision_exact_bend :
    ∃ t change, (Operation.connect Bend.farm Bend.mill).edit.run (after Bend.places) = .ok () t ∧
      (after Bend.places).revision < t.revision ∧ t.connect Bend.farm Bend.mill = .ok t ∧
      t.setLane Bend.farm Bend.mill true = .ok change ∧
      t.DiffersAt change.topology Bend.farm Bend.mill ∧
      change.topology.setLane Bend.farm Bend.mill true =
        .ok ⟨change.topology, change.lane?, none⟩ ∧
      (after Bend.places).perform (.addFork Bend.farm .zero .zero) = after Bend.places := by
  obtain ⟨hfail, hsucceed, -, -, hconnect, -⟩ := revision_exact Bend.places
  obtain ⟨-, -, -, hlane, -, -⟩ := revision_exact (Bend.places ++ [.connect Bend.farm Bend.mill])
  have hconsistent := (built_after Bend.places).consistent
  obtain ⟨t, ht⟩ := exists_of_isOk (x := (after Bend.places).connect Bend.farm Bend.mill)
    (by decide +kernel)
  have hrun : (Operation.connect Bend.farm Bend.mill).edit.run (after Bend.places) = .ok () t :=
    hconsistent.run_eq_ok_iff.2 ht
  obtain ⟨-, hnext, hchanges⟩ := hsucceed _ t hrun
  have hafter : after (Bend.places ++ [.connect Bend.farm Bend.mill]) = t := by
    rw [after_append, List.foldl_cons, List.foldl_nil, hnext]
  obtain ⟨change, hchange⟩ := exists_of_isOk
    (x := (after (Bend.places ++ [.connect Bend.farm Bend.mill])).setLane Bend.farm Bend.mill true)
    (by decide +kernel)
  have hdiffer : t ≠ after Bend.places := by
    intro hsame
    have hrevision : (after (Bend.places ++ [.connect Bend.farm Bend.mill])).revision ≠
        (after Bend.places).revision := by decide +kernel
    exact hrevision (congrArg revision (hafter.trans hsame))
  rw [hafter] at hlane hchange
  obtain ⟨hframe, hagain⟩ := hlane _ _ _ _ hchange
  have hknown : (after Bend.places).kinds.contains Bend.farm.constant = true := by decide +kernel
  have hrefused : (after Bend.places).attempt (.addFork Bend.farm .zero .zero) =
      .error (.duplicateElement Bend.farm.constant) := by
    rw [attempt, addFork, if_pos hknown]
  obtain ⟨-, hkept, -⟩ := hfail _ _ _ (hconsistent.run_eq_error_iff.2 ⟨hrefused, rfl⟩)
  exact ⟨t, change, hrun, (hchanges.resolve_left hdiffer).1, hconnect _ _ _ ht, hchange, hframe,
    hagain, hkept⟩

end Topology
end RightOfWay
