import RightOfWay.Proofs.Crossing.Consistency

/-!
# What a consistent topology answers

In a topology whose parts agree, one look into the index is enough to tell what a constant names,
and one look under the name of a lane is enough to tell whether it can be opened.

* `element?` finds the registered element of a constant (`Consistent.element?_eq_some`).
* A closed lane can be opened unless a lane between other places is open under its name
  (`Consistent.setLane_eq_error`).
* Every lane is in exactly one slot (`Consistent.existsUnique_slot`).

All that is known of the topologies that the operations make is put together in `consistent_after`.
-/

set_option autoImplicit false

namespace RightOfWay

namespace Topology

/-- The element is registered. -/
def Holds (t : Topology) : Element → Prop
  | .entry f => t.forks[f.id]? = some f
  | .exit e => t.exits[e.id]? = some e
  | .lane l => t.lanes[l.id]? = some l

variable {t : Topology} {fork : ForkId} {s : Slot} {c : String}

namespace Consistent

/-! ## Looking elements up -/

/-- Records that are kept under their own identifiers are found by their constants. -/
theorem bind_ofConstant?_eq_some {r : Role} {β : Type} {m : Std.ExtTreeMap (Ident r) β}
    {key : β → Ident r} (hkey : ∀ (id : Ident r) (b : β), m[id]? = some b → key b = id) {b : β} :
    (Ident.ofConstant? c).bind m.get? = some b ↔ m[key b]? = some b ∧ (key b).constant = c := by
  rw [Option.bind_eq_some_iff]
  constructor
  · rintro ⟨id, hid, hb⟩
    rw [hkey id b hb]
    exact ⟨hb, Ident.constant_of_ofConstant? hid⟩
  · rintro ⟨hb, rfl⟩
    exact ⟨key b, Ident.ofConstant?_constant _, hb⟩

theorem kinds_of_holds (h : t.Consistent) {element : Element} (hholds : t.Holds element) :
    t.kinds[element.constant]? = some element.kind := by
  rw [h.kinds]
  cases element with
  | entry f => exact ⟨f.id, of_getElem?_eq_some hholds, rfl⟩
  | exit e => exact ⟨e.id, of_getElem?_eq_some hholds, rfl⟩
  | lane l => exact ⟨l.id, of_getElem?_eq_some hholds, rfl⟩

/-- A constant is that of an element which is registered, or nothing is found. -/
theorem element?_eq_some (h : t.Consistent) {element : Element} :
    t.element? c = some element ↔ t.Holds element ∧ element.constant = c := by
  constructor
  · intro hfound
    rw [element?] at hfound
    split at hfound
    · cases hfound
    · obtain ⟨f, hf, rfl⟩ := Option.map_eq_some_iff.1 hfound
      exact (bind_ofConstant?_eq_some h.keyed).1 hf
    · obtain ⟨e, he, rfl⟩ := Option.map_eq_some_iff.1 hfound
      exact (bind_ofConstant?_eq_some h.exit_id).1 he
    · obtain ⟨l, hl, rfl⟩ := Option.map_eq_some_iff.1 hfound
      exact (bind_ofConstant?_eq_some h.lane_id).1 hl
  · rintro ⟨hholds, rfl⟩
    rw [element?, h.kinds_of_holds hholds]
    cases element with
    | entry f =>
      exact Option.map_eq_some_iff.2 ⟨f, (bind_ofConstant?_eq_some h.keyed).2 ⟨hholds, rfl⟩, rfl⟩
    | exit e =>
      exact Option.map_eq_some_iff.2 ⟨e, (bind_ofConstant?_eq_some h.exit_id).2 ⟨hholds, rfl⟩, rfl⟩
    | lane l =>
      exact Option.map_eq_some_iff.2 ⟨l, (bind_ofConstant?_eq_some h.lane_id).2 ⟨hholds, rfl⟩, rfl⟩

/-! ## Collisions -/

/-- Opening a closed lane is a matter of its name. -/
theorem setLane_of_closed (h : t.Consistent) (hs : t.HasSlot fork s) (hclosed : s.lane? = none) :
    ∃ change, t.setLane fork s.exit true =
      match t.lanes[Ident.between fork s.exit]? with
      | some taken =>
        .error (.laneCollision (.between fork s.exit) fork s.exit taken.fork taken.exit)
      | none => .ok change := by
  obtain ⟨e, he⟩ : ∃ e, t.exits[s.exit]? = some e := ⟨_, getElem?_pos _ _ (h.exit_mem fork s hs)⟩
  obtain ⟨f, hf, -⟩ := id hs
  have hslot := (h.hasSlot_iff hf).1 hs
  obtain rfl := h.keyed fork f hf
  have hname : (Lane.joining f e).id = .between f.id s.exit := by
    rw [Lane.joining, h.exit_id _ e he]
  rw [Topology.setLane]
  simp only [he, hf, hslot, hclosed, hname]
  exact ⟨_, rfl⟩

/-- A closed lane cannot be opened exactly if a lane between other places is open under its name. -/
theorem setLane_eq_error (h : t.Consistent) (hs : t.HasSlot fork s) (hclosed : s.lane? = none)
    {error : CrossingError} :
    t.setLane fork s.exit true = .error error ↔
      ∃ fork' s', t.HasSlot fork' s' ∧ s'.active = true ∧ (fork', s'.exit) ≠ (fork, s.exit) ∧
        Ident.between fork' s'.exit = .between fork s.exit ∧
        error = .laneCollision (.between fork s.exit) fork s.exit fork' s'.exit := by
  obtain ⟨change, hset⟩ := h.setLane_of_closed hs hclosed
  rw [hset]
  constructor
  · intro herror
    cases htaken : t.lanes[Ident.between fork s.exit]? with
    | none =>
      rw [htaken] at herror
      cases herror
    | some taken =>
      rw [htaken] at herror
      cases herror
      have hslot := h.hasSlot _ taken htaken
      refine ⟨_, _, hslot, rfl, fun hsame ↦ ?_, (h.exists_lane _ _ _ hslot).1.symm, rfl⟩
      -- the slot of the lane under that name is not empty
      obtain ⟨hfork, hexit⟩ := Prod.mk.inj hsame
      have heq := h.slot_unique (hfork ▸ hslot) hs hexit
      rw [← heq] at hclosed
      cases hclosed
  · rintro ⟨fork', s', hs', hactive, -, hname, rfl⟩
    obtain ⟨id, hid⟩ := (h.active_iff hs').1 hactive
    rw [h.eq_opened hs' hid] at hs'
    obtain ⟨rfl, taken, htaken, rfl, hexit⟩ := h.exists_lane _ _ _ hs'
    rw [hname] at htaken
    rw [htaken, ← hexit]

/-- Every lane is in exactly one slot. -/
theorem existsUnique_slot (h : t.Consistent) {id : LaneId} (hid : id ∈ t.lanes) :
    ∃! p : ForkId × Slot, t.HasSlot p.1 p.2 ∧ p.2.lane? = some id := by
  obtain ⟨lane, hlane⟩ : ∃ lane, t.lanes[id]? = some lane := ⟨_, getElem?_pos _ _ hid⟩
  refine ⟨(lane.fork, .opened lane.exit id), ⟨h.hasSlot id lane hlane, rfl⟩, ?_⟩
  rintro ⟨fork, s⟩ ⟨hs, hsome⟩
  dsimp only at hs hsome
  have hopened := h.eq_opened hs hsome
  rw [hopened] at hs
  -- the lane itself names the ends of the slot it is in
  obtain ⟨-, lane', hlane', hfork, hexit⟩ := h.exists_lane fork s.exit id hs
  cases hlane.symm.trans hlane'
  rw [hfork, hexit, ← hopened]

end Consistent
end Topology

/-- Different pairs of places can ask for lanes of one name. -/
example :
    Ident.between ⟨"a", by decide⟩ ⟨"to_b", by decide⟩ =
      Ident.between ⟨"a_to", by decide⟩ ⟨"b", by decide⟩ := by
  decide

/-- **Whatever operations are tried, successful or not, a topology stays consistent.**  Records are
kept under their own identifiers; slots are for registered exits, one for each, and are active if
they hold the lane from their fork to their exit; every lane is in exactly one slot; the index knows
all places and open lanes and nothing else, so that `element?` finds what is registered; and a
closed lane fails to open exactly if a lane between other places is open under its name. -/
theorem consistent_after (operations : List Topology.Operation) :
    let t := Topology.after operations
    (∀ (id : ForkId) (f : Fork), t.forks[id]? = some f → f.id = id) ∧
    (∀ (id : ExitId) (e : Exit), t.exits[id]? = some e → e.id = id) ∧
    (∀ (id : LaneId) (lane : Lane), t.lanes[id]? = some lane → lane.id = id) ∧
    (∀ (id : ForkId) (f : Fork), t.forks[id]? = some f → (f.slots.map Slot.exit).Nodup) ∧
    (∀ (fork : ForkId) (s : Slot), t.HasSlot fork s →
      s.exit ∈ t.exits ∧
      (s.active = true ↔ ∃ id, s.lane? = some id) ∧
      (∀ id, s.lane? = some id → id = .between fork s.exit ∧
        ∃ lane, t.lanes[id]? = some lane ∧ lane.fork = fork ∧ lane.exit = s.exit) ∧
      (s.active = false → ∀ error : CrossingError, t.setLane fork s.exit true = .error error ↔
        ∃ fork' s', t.HasSlot fork' s' ∧ s'.active = true ∧ (fork', s'.exit) ≠ (fork, s.exit) ∧
          Ident.between fork' s'.exit = .between fork s.exit ∧
          error = .laneCollision (.between fork s.exit) fork s.exit fork' s'.exit)) ∧
    (∀ id ∈ t.lanes, ∃! p : ForkId × Slot, t.HasSlot p.1 p.2 ∧ p.2.lane? = some id) ∧
    (∀ (c : String) (kind : ElementKind), t.kinds[c]? = some kind ↔ t.Registers kind c) ∧
    (∀ (c : String) (element : Element),
      t.element? c = some element ↔ t.Holds element ∧ element.constant = c) := by
  intro t
  have h : t.Consistent := (Topology.built_after operations).consistent
  refine ⟨h.keyed, h.exit_id, h.lane_id, h.nodup, fun fork s hs ↦ ?_, fun _ ↦ h.existsUnique_slot,
    h.kinds, fun _ _ ↦ h.element?_eq_some⟩
  refine ⟨h.exit_mem fork s hs, h.active_iff hs, fun id hid ↦ ?_, fun hinactive error ↦ ?_⟩
  · rw [h.eq_opened hs hid] at hs
    exact h.exists_lane fork s.exit id hs
  · refine h.setLane_eq_error hs ?_
    rcases h.slot_cases fork s hs with hclosed | ⟨id, hopened⟩
    · exact congrArg Slot.lane? hclosed
    · rw [hopened] at hinactive
      cases hinactive

end RightOfWay
