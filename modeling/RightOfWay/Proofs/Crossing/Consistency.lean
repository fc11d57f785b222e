import RightOfWay.Proofs.Crossing.Slots
import RightOfWay.Proofs.OrderedMap

/-!
# Consistent topologies

A topology holds some things more than once.  That a lane is open is said by the slot of its fork,
by the lane itself and by the index of constants, and lane names alone do not tell between which
places a lane runs.

* `Topology.Registers` says what the index of constants ought to know.
* `Topology.Consistent` says that all parts agree.  There is one lemma for each way to change a
  topology: a new place (`Consistent.insertFork`, `Consistent.insertExit`), new slots
  (`Consistent.connect`), and a lane opened or closed (`Consistent.openLane`,
  `Consistent.closeLane`).
* So what the operations make is consistent (`Topology.Built.consistent`).
-/

set_option autoImplicit false

namespace RightOfWay

/-- Constants of different roles differ. -/
theorem Ident.constant_ne {r s : Role} (h : r ≠ s) (i : Ident r) (j : Ident s) :
    i.constant ≠ j.constant := by
  intro heq
  have htext := congrArg String.toList heq
  rw [i.toList_constant, j.toList_constant] at htext
  exact h (Role.eq_of_initials_append htext)

namespace Topology

/-! ## What there is to agree on -/

/-- The constant is that of a registered place or of an open lane, and this is its kind. -/
def Registers (t : Topology) : ElementKind → String → Prop
  | .entry, c => ∃ id ∈ t.forks, id.constant = c
  | .exit, c => ∃ id ∈ t.exits, id.constant = c
  | .lane, c => ∃ id ∈ t.lanes, id.constant = c

/-- The parts of the topology agree. -/
structure Consistent (t : Topology) : Prop where
  keyed : t.Keyed
  exit_id : ∀ (id : ExitId) (e : Exit), t.exits[id]? = some e → e.id = id
  lane_id : ∀ (id : LaneId) (lane : Lane), t.lanes[id]? = some lane → lane.id = id
  /-- No fork has two slots for one exit. -/
  nodup : ∀ (id : ForkId) (f : Fork), t.forks[id]? = some f → (f.slots.map Slot.exit).Nodup
  /-- Slots are for registered exits. -/
  exit_mem : ∀ fork s, t.HasSlot fork s → s.exit ∈ t.exits
  /-- A slot is active if it holds a lane, and only then. -/
  slot_cases : ∀ fork s, t.HasSlot fork s → s = .closed s.exit ∨ ∃ id, s = .opened s.exit id
  /-- The lane in a slot is the one from its fork to its exit. -/
  exists_lane : ∀ fork exit id, t.HasSlot fork (.opened exit id) →
    id = .between fork exit ∧ ∃ lane, t.lanes[id]? = some lane ∧ lane.fork = fork ∧ lane.exit = exit
  /-- Every lane is in the slot between its ends. -/
  hasSlot : ∀ (id : LaneId) (lane : Lane), t.lanes[id]? = some lane →
    t.HasSlot lane.fork (.opened lane.exit id)
  /-- The index knows the constants of all places and open lanes, and no others. -/
  kinds : ∀ c kind, t.kinds[c]? = some kind ↔ t.Registers kind c

variable {t t' : Topology} {fork fork' : ForkId} {exit : ExitId} {f : Fork} {e : Exit} {s s' : Slot}
  {kind : ElementKind} {c : String}

section Connect

variable {exits : ForkId → List ExitId}

theorem forall_fork_connect {forks : Std.ExtTreeMap ForkId Fork} {P : ForkId → Fork → Prop}
    (hforks : ∀ id : ForkId, forks[id]? = t.forks[id]?.map (·.connect (exits id)))
    (hP : ∀ (id : ForkId) (f : Fork), t.forks[id]? = some f → P id (f.connect (exits id)))
    (id : ForkId) (f : Fork) (hf : forks[id]? = some f) : P id f := by
  rw [hforks] at hf
  obtain ⟨g, hg, rfl⟩ := Option.map_eq_some_iff.1 hf
  exact hP id g hg

/-- The new slots are closed, and they are for exits that the fork had no slot for. -/
theorem hasSlot_connect_iff
    (hforks : ∀ id : ForkId, t'.forks[id]? = t.forks[id]?.map (·.connect (exits id))) :
    t'.HasSlot fork s ↔ t.HasSlot fork s ∨
      s = .closed s.exit ∧ ∃ f, t.forks[fork]? = some f ∧ s.exit ∈ f.unconnected (exits fork) := by
  simp only [HasSlot, hforks, Option.map_eq_some_iff]
  constructor
  · rintro ⟨_, ⟨f, hf, rfl⟩, hs⟩
    rcases Fork.mem_connect.1 hs with hold | ⟨hnew, hclosed⟩
    · exact .inl ⟨f, hf, hold⟩
    · exact .inr ⟨hclosed, f, hf, hnew⟩
  · rintro (⟨f, hf, hold⟩ | ⟨hclosed, f, hf, hnew⟩)
    · exact ⟨_, ⟨f, hf, rfl⟩, Fork.mem_connect.2 (.inl hold)⟩
    · exact ⟨_, ⟨f, hf, rfl⟩, Fork.mem_connect.2 (.inr ⟨hnew, hclosed⟩)⟩

theorem registers_connect
    (hforks : ∀ id : ForkId, t'.forks[id]? = t.forks[id]?.map (·.connect (exits id)))
    (hexits : t'.exits = t.exits) (hlanes : t'.lanes = t.lanes) :
    t'.Registers kind c ↔ t.Registers kind c := by
  have hmem : ∀ id, id ∈ t'.forks ↔ id ∈ t.forks := fun id ↦ by
    rw [Std.ExtTreeMap.mem_iff_isSome_getElem?, hforks, Option.isSome_map,
      ← Std.ExtTreeMap.mem_iff_isSome_getElem?]
  cases kind with
  | entry => simp only [Registers, hmem]
  | exit => rw [Registers, Registers, hexits]
  | lane => rw [Registers, Registers, hlanes]

end Connect

theorem registers_openLane (hf : t.forks[f.id]? = some f) {lane : Lane} :
    (t.openLane f lane).Registers kind c ↔
      kind = .lane ∧ lane.id.constant = c ∨ t.Registers kind c := by
  cases kind with
  | entry =>
    simp only [Registers, openLane, mem_insert_forks hf, reduceCtorEq, false_and, false_or]
  | exit => simp [Registers, openLane]
  | lane => simp [Registers, openLane]

/-- A closed lane takes only its own constant along: those of places and of other lanes differ. -/
theorem registers_closeLane (hf : t.forks[f.id]? = some f) {id : LaneId} :
    (t.closeLane f exit id).Registers kind c ↔ id.constant ≠ c ∧ t.Registers kind c := by
  have hplace : ∀ {r : Role} {p : Ident r → Prop}, r ≠ .lane →
      ((∃ i, p i ∧ i.constant = c) ↔ id.constant ≠ c ∧ ∃ i, p i ∧ i.constant = c) := by
    intro r p hr
    refine (and_iff_right_of_imp ?_).symm
    rintro ⟨i, -, rfl⟩
    exact Ident.constant_ne hr.symm id i
  cases kind with
  | entry =>
    simp only [Registers, closeLane, mem_insert_forks hf]
    exact hplace (by decide)
  | exit => exact hplace (by decide)
  | lane =>
    simp only [Registers, closeLane, Std.ExtTreeMap.mem_erase, ne_eq,
      Std.LawfulEqCmp.compare_eq_iff_eq]
    constructor
    · rintro ⟨i, ⟨hne, hi⟩, rfl⟩
      exact ⟨fun heq ↦ hne (Ident.constant_injective heq), i, hi, rfl⟩
    · rintro ⟨hne, i, hi, rfl⟩
      exact ⟨i, ⟨fun heq ↦ hne (congrArg _ heq), hi⟩, rfl⟩

namespace Consistent

theorem empty : Topology.empty.Consistent where
  keyed id f hf := by simp [Topology.empty] at hf
  exit_id id e he := by simp [Topology.empty] at he
  lane_id id lane hlane := by simp [Topology.empty] at hlane
  nodup id f hf := by simp [Topology.empty] at hf
  exit_mem := by
    rintro fork s ⟨f, hf, -⟩
    simp [Topology.empty] at hf
  slot_cases := by
    rintro fork s ⟨f, hf, -⟩
    simp [Topology.empty] at hf
  exists_lane := by
    rintro fork exit id ⟨f, hf, -⟩
    simp [Topology.empty] at hf
  hasSlot id lane hlane := by simp [Topology.empty] at hlane
  kinds c kind := by cases kind <;> simp [Topology.empty, Registers]

/-- A fork has one slot for an exit. -/
theorem slot_unique (h : t.Consistent) (hs : t.HasSlot fork s) (hs' : t.HasSlot fork s')
    (hexit : s.exit = s'.exit) : s = s' := by
  obtain ⟨f, hf, hmem⟩ := hs
  obtain ⟨f', hf', hmem'⟩ := hs'
  cases hf.symm.trans hf'
  have hnodup := h.nodup fork f hf
  exact (List.nodup_map_iff_inj_on hnodup.of_map).1 hnodup s hmem s' hmem' hexit

theorem eq_closed (h : t.Consistent) (hs : t.HasSlot fork s) (hnone : s.lane? = none) :
    s = .closed s.exit := by
  rcases h.slot_cases fork s hs with hclosed | ⟨id, hopened⟩
  · exact hclosed
  · rw [hopened] at hnone
    cases hnone

theorem eq_opened (h : t.Consistent) (hs : t.HasSlot fork s) {id : LaneId}
    (hsome : s.lane? = some id) : s = .opened s.exit id := by
  rcases h.slot_cases fork s hs with hclosed | ⟨id', hopened⟩
  · rw [hclosed] at hsome
    cases hsome
  · rw [hopened] at hsome
    cases hsome
    exact hopened

theorem active_iff (h : t.Consistent) (hs : t.HasSlot fork s) :
    s.active = true ↔ ∃ id, s.lane? = some id := by
  rcases h.slot_cases fork s hs with hclosed | ⟨id, hopened⟩
  · rw [hclosed]
    simp [Slot.closed]
  · rw [hopened]
    simp [Slot.opened]

theorem hasSlot_iff (h : t.Consistent) (hf : t.forks[fork]? = some f) :
    t.HasSlot fork s ↔ f.slot? s.exit = some s := by
  rw [Fork.slot?_eq_some (h.nodup fork f hf)]
  constructor
  · rintro ⟨f', hf', hmem⟩
    cases hf.symm.trans hf'
    exact ⟨hmem, rfl⟩
  · rintro ⟨hmem, -⟩
    exact ⟨f, hf, hmem⟩

/-! ## The index -/

/-- The index with a new constant knows what was known before and the new one. -/
theorem kinds_insert {c₀ : String} {kind₀ : ElementKind} (h : t.Consistent)
    (hkinds : t'.kinds = t.kinds.insert c₀ kind₀) (hfresh : t.kinds[c₀]? = none)
    (hregisters : ∀ kind c, t'.Registers kind c ↔ (kind = kind₀ ∧ c₀ = c) ∨ t.Registers kind c) :
    ∀ c kind, t'.kinds[c]? = some kind ↔ t'.Registers kind c := by
  intro c kind
  rw [hkinds, hregisters, ← h.kinds]
  simp only [Std.ExtTreeMap.getElem?_insert, Std.LawfulEqCmp.compare_eq_iff_eq]
  by_cases hc : c₀ = c
  · subst hc
    simp [hfresh, eq_comm]
  · simp [hc]

/-- The index without a constant knows all others that were known before. -/
theorem kinds_erase {c₀ : String} (h : t.Consistent) (hkinds : t'.kinds = t.kinds.erase c₀)
    (hregisters : ∀ kind c, t'.Registers kind c ↔ c₀ ≠ c ∧ t.Registers kind c) :
    ∀ c kind, t'.kinds[c]? = some kind ↔ t'.Registers kind c := by
  intro c kind
  rw [hkinds, hregisters, ← h.kinds]
  simp only [Std.ExtTreeMap.getElem?_erase, Std.LawfulEqCmp.compare_eq_iff_eq]
  by_cases hc : c₀ = c
  · simp [hc]
  · simp [hc]

/-! ## New places -/

theorem notMem_forks (h : t.Consistent) {id : ForkId} (hfresh : t.kinds[id.constant]? = none) :
    id ∉ t.forks := by
  intro hmem
  rw [(h.kinds _ .entry).2 ⟨id, hmem, rfl⟩] at hfresh
  cases hfresh

theorem notMem_exits (h : t.Consistent) {id : ExitId} (hfresh : t.kinds[id.constant]? = none) :
    id ∉ t.exits := by
  intro hmem
  rw [(h.kinds _ .exit).2 ⟨id, hmem, rfl⟩] at hfresh
  cases hfresh

theorem insertFork (h : t.Consistent) {id : ForkId} (location forward : Vec)
    (hfresh : t.kinds[id.constant]? = none) :
    Consistent { t with
      forks := t.forks.insert id ⟨id, location, forward, []⟩
      kinds := t.kinds.insert id.constant .entry
      revision := t.revision + 1 } := by
  have hslot : ∀ (t' : Topology) (fork : ForkId) (s : Slot),
      t'.forks = t.forks.insert id ⟨id, location, forward, []⟩ →
        (t'.HasSlot fork s ↔ t.HasSlot fork s) := by
    intro t' fork s hforks
    rw [hasSlot_insert hforks]
    by_cases hid : id = fork
    · rw [if_pos hid, ← hid]
      exact iff_of_false List.not_mem_nil fun ⟨f, hf, _⟩ ↦
        h.notMem_forks hfresh (of_getElem?_eq_some hf)
    · rw [if_neg hid]
  refine
    { keyed := forall_getElem?_insert h.keyed rfl
      exit_id := h.exit_id
      lane_id := h.lane_id
      nodup := forall_getElem?_insert h.nodup List.nodup_nil
      exit_mem := fun fork s hs ↦ h.exit_mem fork s ((hslot _ fork s rfl).1 hs)
      slot_cases := fun fork s hs ↦ h.slot_cases fork s ((hslot _ fork s rfl).1 hs)
      exists_lane := fun fork exit lane hs ↦ h.exists_lane fork exit lane ((hslot _ _ _ rfl).1 hs)
      hasSlot := fun lane l hl ↦ (hslot _ _ _ rfl).2 (h.hasSlot lane l hl)
      kinds := h.kinds_insert rfl hfresh fun kind c ↦ ?_ }
  cases kind <;> simp [Registers]

theorem insertExit (h : t.Consistent) {id : ExitId} (location forward : Vec)
    (hfresh : t.kinds[id.constant]? = none) :
    Consistent { t with
      exits := t.exits.insert id ⟨id, location, forward⟩
      kinds := t.kinds.insert id.constant .exit
      revision := t.revision + 1 } := by
  refine
    { keyed := h.keyed
      exit_id := forall_getElem?_insert h.exit_id rfl
      lane_id := h.lane_id
      nodup := h.nodup
      exit_mem := fun fork s hs ↦ Std.ExtTreeMap.mem_insert.2 (.inr (h.exit_mem fork s hs))
      slot_cases := h.slot_cases
      exists_lane := h.exists_lane
      hasSlot := h.hasSlot
      kinds := h.kinds_insert rfl hfresh fun kind c ↦ ?_ }
  cases kind <;> simp [Registers]

/-! ## New slots -/

/-- Forks may get slots for registered exits. -/
theorem connect (h : t.Consistent) (exits : ForkId → List ExitId)
    (hexits : ∀ fork, (exits fork).Nodup ∧ ∀ exit ∈ exits fork, exit ∈ t.exits)
    {forks : Std.ExtTreeMap ForkId Fork}
    (hforks : ∀ id : ForkId, forks[id]? = t.forks[id]?.map (·.connect (exits id)))
    (revision : Nat) : Consistent { t with forks, revision } := by
  have hslot : ∀ fork s, HasSlot { t with forks, revision } fork s ↔ _ := fun _ _ ↦
    hasSlot_connect_iff hforks
  have hregisters : ∀ kind c, Registers { t with forks, revision } kind c ↔ t.Registers kind c :=
    fun _ _ ↦ registers_connect hforks rfl rfl
  refine
    { keyed := forall_fork_connect hforks fun id f hf ↦ h.keyed id f hf
      exit_id := h.exit_id
      lane_id := h.lane_id
      nodup := forall_fork_connect hforks fun id f hf ↦
        Fork.nodup_connect (h.nodup id f hf) (hexits id).1
      exit_mem := fun fork s hs ↦ ?_
      slot_cases := fun fork s hs ↦ ?_
      exists_lane := fun fork exit id hs ↦ ?_
      hasSlot := fun id lane hlane ↦ (hslot _ _).2 (.inl (h.hasSlot id lane hlane))
      kinds := fun c kind ↦ (h.kinds c kind).trans (hregisters kind c).symm }
  · rcases (hslot _ _).1 hs with hold | ⟨-, f, -, hnew⟩
    · exact h.exit_mem fork s hold
    · exact (hexits fork).2 _ (Fork.mem_unconnected.1 hnew).1
  · rcases (hslot _ _).1 hs with hold | ⟨hclosed, -⟩
    · exact h.slot_cases fork s hold
    · exact .inl hclosed
  · -- new slots hold no lane
    rcases (hslot _ _).1 hs with hold | ⟨hclosed, -⟩
    · exact h.exists_lane fork exit id hold
    · cases hclosed

/-! ## Lanes opened and closed -/

/-- The constant of a lane that is not open is unknown. -/
theorem kinds_eq_none (h : t.Consistent) {id : LaneId} (hfree : t.lanes[id]? = none) :
    t.kinds[id.constant]? = none := by
  refine Option.eq_none_iff_forall_ne_some.2 fun kind hkind ↦ ?_
  have hregisters := (h.kinds _ _).1 hkind
  cases kind with
  | entry =>
    obtain ⟨i, -, heq⟩ := hregisters
    exact Ident.constant_ne (by decide) i id heq
  | exit =>
    obtain ⟨i, -, heq⟩ := hregisters
    exact Ident.constant_ne (by decide) i id heq
  | lane =>
    obtain ⟨i, hi, heq⟩ := hregisters
    rw [Ident.constant_injective heq] at hi
    exact (getElem?_eq_none_iff _ _).1 hfree hi

theorem openLane (h : t.Consistent) (hf : t.forks[f.id]? = some f)
    (hs : t.HasSlot f.id (.closed e.id)) (hfree : t.lanes[(Lane.joining f e).id]? = none) :
    (t.openLane f (.joining f e)).Consistent := by
  have hslot : ∀ fork s, (t.openLane f (.joining f e)).HasSlot fork s ↔
      (t.HasSlot fork s ∧ ¬ (f.id = fork ∧ s.exit = e.id)) ∨
        f.id = fork ∧ s = .opened e.id (Lane.joining f e).id :=
    fun fork s ↦ hasSlot_putSlot (.opened e.id (Lane.joining f e).id) hf hs rfl rfl
  refine
    { keyed := forall_getElem?_insert h.keyed rfl
      exit_id := h.exit_id
      lane_id := forall_getElem?_insert h.lane_id rfl
      nodup := forall_getElem?_insert h.nodup (Fork.nodup_putSlot (h.nodup _ f hf))
      exit_mem :=
        forall_hasSlot_putSlot rfl hf hs rfl h.exit_mem (h.exit_mem _ (.closed e.id) hs)
      slot_cases := forall_hasSlot_putSlot rfl hf hs rfl h.slot_cases (.inr ⟨_, rfl⟩)
      exists_lane := fun fork exit id hs' ↦ ?_
      hasSlot := forall_getElem?_insert (fun id lane hlane ↦ ?_) ((hslot _ _).2 (.inr ⟨rfl, rfl⟩))
      kinds := h.kinds_insert rfl (h.kinds_eq_none hfree) fun kind c ↦ registers_openLane hf }
  · rcases (hslot fork _).1 hs' with ⟨hold, -⟩ | ⟨rfl, hnew⟩
    · obtain ⟨hid, lane, hlane, hends⟩ := h.exists_lane fork exit id hold
      refine ⟨hid, lane, ?_, hends⟩
      rw [Topology.openLane, Std.ExtTreeMap.getElem?_insert, if_neg]
      · exact hlane
      · rw [Std.LawfulEqCmp.compare_eq_iff_eq]
        rintro rfl
        rw [hfree] at hlane
        cases hlane
    · cases hnew
      exact ⟨rfl, _, Std.ExtTreeMap.getElem?_insert_self, rfl, rfl⟩
  · refine (hslot _ _).2 (.inl ⟨h.hasSlot id lane hlane, fun ⟨hfork, hexit⟩ ↦ ?_⟩)
    -- the slot was empty before
    have hsame := h.slot_unique (hfork ▸ hs) (h.hasSlot id lane hlane) hexit.symm
    cases congrArg Slot.lane? hsame

theorem closeLane (h : t.Consistent) {id : LaneId} (hf : t.forks[f.id]? = some f)
    (hs : t.HasSlot f.id (.opened exit id)) : (t.closeLane f exit id).Consistent := by
  have hslot : ∀ fork s, (t.closeLane f exit id).HasSlot fork s ↔
      (t.HasSlot fork s ∧ ¬ (f.id = fork ∧ s.exit = exit)) ∨ f.id = fork ∧ s = .closed exit :=
    fun fork s ↦ hasSlot_putSlot (.closed exit) hf hs rfl rfl
  have herase : ∀ (i : LaneId) (lane : Lane), (t.closeLane f exit id).lanes[i]? = some lane ↔
      id ≠ i ∧ t.lanes[i]? = some lane := by
    intro i lane
    simp [Topology.closeLane, Std.ExtTreeMap.getElem?_erase]
  refine
    { keyed := forall_getElem?_insert h.keyed rfl
      exit_id := h.exit_id
      lane_id := fun i lane hlane ↦ h.lane_id i lane ((herase i lane).1 hlane).2
      nodup := forall_getElem?_insert h.nodup (Fork.nodup_putSlot (h.nodup _ f hf))
      exit_mem :=
        forall_hasSlot_putSlot rfl hf hs rfl h.exit_mem (h.exit_mem _ (.opened exit id) hs)
      slot_cases := forall_hasSlot_putSlot rfl hf hs rfl h.slot_cases (.inl rfl)
      exists_lane := fun fork exit' i hs' ↦ ?_
      hasSlot := fun i lane hlane ↦ ?_
      kinds := h.kinds_erase rfl fun kind c ↦ registers_closeLane hf }
  · rcases (hslot fork _).1 hs' with ⟨hold, hne⟩ | ⟨-, hnew⟩
    · obtain ⟨hid, lane, hlane, rfl, rfl⟩ := h.exists_lane fork exit' i hold
      refine ⟨hid, lane, (herase i lane).2 ⟨?_, hlane⟩, rfl, rfl⟩
      -- no other slot holds the lane: its record names the ends of this one
      rintro rfl
      obtain ⟨-, lane', hlane', hfork, hexit⟩ := h.exists_lane _ _ _ hs
      cases hlane.symm.trans hlane'
      exact hne ⟨hfork.symm, hexit⟩
    · cases hnew
  · obtain ⟨hne, hlane⟩ := (herase i lane).1 hlane
    refine (hslot _ _).2 (.inl ⟨h.hasSlot i lane hlane, fun ⟨hfork, hexit⟩ ↦ ?_⟩)
    have hsame := h.slot_unique (hfork ▸ hs) (h.hasSlot i lane hlane) hexit.symm
    exact hne (Option.some.inj (congrArg Slot.lane? hsame))

theorem setLane (h : t.Consistent) {active : Bool} {change : LaneChange}
    (hset : t.setLane fork exit active = .ok change) : change.topology.Consistent := by
  obtain ⟨e, f, slot, he, hf, hslot, hsame | ⟨-, hclosed, hfree, hopen⟩ | ⟨-, id, hid, hclose⟩⟩ :=
    setLane_cases hset
  · rw [hsame.2]
    exact h
  · obtain rfl := h.keyed fork f hf
    obtain rfl := h.exit_id exit e he
    obtain ⟨hmem, hexit⟩ := (Fork.slot?_eq_some (h.nodup _ f hf)).1 hslot
    have hs : t.HasSlot f.id slot := ⟨f, hf, hmem⟩
    rw [hopen]
    refine h.openLane hf ?_ hfree
    rwa [← hexit, ← h.eq_closed hs hclosed]
  · obtain rfl := h.keyed fork f hf
    obtain ⟨hmem, rfl⟩ := (Fork.slot?_eq_some (h.nodup _ f hf)).1 hslot
    have hs : t.HasSlot f.id slot := ⟨f, hf, hmem⟩
    rw [hclose]
    refine h.closeLane hf ?_
    rwa [← h.eq_opened hs hid]

end Consistent

/-- **The operations keep all parts of a topology in agreement.** -/
theorem Built.consistent (h : t.Built) : t.Consistent := by
  induction h with
  | empty => exact .empty
  | addFork _ h ih =>
    obtain ⟨hfresh, unit, rfl⟩ := addFork_eq_ok h
    exact ih.insertFork _ unit hfresh
  | addExit _ h ih =>
    obtain ⟨hfresh, unit, rfl⟩ := addExit_eq_ok h
    exact ih.insertExit _ unit hfresh
  | @connect t t' fork exit _ h ih =>
    rcases connect_cases h with rfl | ⟨f, hexit, hf, -, rfl⟩
    · exact ih
    · refine ih.connect (fun id ↦ if fork = id then [exit] else []) (fun id ↦ ?_) (fun id ↦ ?_) _
      · by_cases hid : fork = id
        · simpa [hid] using hexit
        · simp [hid]
      · by_cases hid : fork = id
        · subst hid
          simp [hf]
        · simp [hid, Std.ExtTreeMap.getElem?_insert, Fork.connect_nil]
  | @connectAll t _ ih =>
    refine ih.connect (fun _ ↦ t.exits.keys) (fun _ ↦ ⟨Std.ExtTreeMap.nodup_keys, ?_⟩)
      (fun id ↦ ?_) _
    · exact fun exit hexit ↦ Std.ExtTreeMap.mem_keys.1 hexit
    · exact Std.ExtTreeMap.getElem?_map
  | setLane _ h ih => exact ih.setLane h

end Topology
end RightOfWay
