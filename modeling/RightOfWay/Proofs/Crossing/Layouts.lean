import Mathlib.Data.List.Pairwise
import RightOfWay.Proofs.Crossing.Registration
import RightOfWay.Proofs.Crossing.Relations
import RightOfWay.Proofs.Crossing.Revisions

/-!
# What layouts describe

To build the crossing of a layout is to register places one by one and then to open lanes one by
one, and every step can fail because of those before it.  None of this order shows in the end.

* `Layout.Coherent` says what must hold of a layout for its crossing to be built, and this can be
  told without building anything (`Layout.exists_build?_iff`).
* `Layout.Depicts` says which crossing that is, and it is only one (`Layout.Depicts.eq`).  The slots
  of a fork are determined because every exit is reachable and slots are open or closed as the lanes
  are (`Topology.Meshed.slots_eq`), and the revision because it counts what there is.
* Both can be told from the places in the box and from which lanes are listed, so that they are the
  same for layouts that say the same in another order (`Layout.Rearranges`).

Opening the lanes is an `Intake` (`Layout.laneIntake`): a lane goes with those that are open already
unless one of them bears its name.
-/

set_option autoImplicit false

namespace RightOfWay

namespace Topology

variable {t t' : Topology} {fork fork' : ForkId} {exit exit' : ExitId} {change : LaneChange}

/-! ## Lanes where all exits can be reached -/

theorem Meshed.hasSlot (h : t.Meshed) (hfork : fork ∈ t.forks) (hexit : exit ∈ t.exits) :
    ∃ s, t.HasSlot fork s ∧ s.exit = exit := by
  obtain ⟨f, hf⟩ : ∃ f, t.forks[fork]? = some f := ⟨_, getElem?_pos _ _ hfork⟩
  have hmem := Std.ExtTreeMap.mem_keys.2 hexit
  rw [← h fork f hf] at hmem
  obtain ⟨s, hs, hsexit⟩ := List.mem_map.1 hmem
  exact ⟨s, ⟨f, hf, hs⟩, hsexit⟩

/-- Open lanes of one name are one lane. -/
theorem Consistent.eq_of_isOpen (h : t.Consistent) (hopen : t.IsOpen fork exit)
    (hopen' : t.IsOpen fork' exit') (hname : Ident.between fork' exit' = .between fork exit) :
    (fork', exit') = (fork, exit) := by
  rw [h.isOpen_iff] at hopen hopen'
  obtain ⟨-, lane, hlane, rfl, rfl⟩ := h.exists_lane _ _ _ hopen
  obtain ⟨-, lane', hlane', rfl, rfl⟩ := h.exists_lane _ _ _ hopen'
  rw [hname, hlane] at hlane'
  cases hlane'
  rfl

/-- A lane can be opened if no other one of its name is open. -/
theorem Meshed.exists_setLane_iff (hm : t.Meshed) (h : t.Consistent) (hfork : fork ∈ t.forks)
    (hexit : exit ∈ t.exits) : (∃ change, t.setLane fork exit true = .ok change) ↔
      ∀ fork' exit', t.IsOpen fork' exit' → Ident.between fork' exit' = .between fork exit →
        (fork', exit') = (fork, exit) := by
  obtain ⟨s, hs, rfl⟩ := hm.hasSlot hfork hexit
  rcases h.slot_cases fork s hs with hclosed | ⟨lane, hopened⟩
  · have hnone : s.lane? = none := congrArg Slot.lane? hclosed
    constructor
    · rintro ⟨change, hchange⟩ fork' exit' ⟨s', hs', rfl, hactive⟩ hname
      by_contra hne
      cases hchange.symm.trans
        ((h.setLane_eq_error hs hnone).2 ⟨fork', s', hs', hactive, hne, hname, rfl⟩)
    · intro hnames
      cases hset : t.setLane fork s.exit true with
      | ok change => exact ⟨change, rfl⟩
      | error e =>
        obtain ⟨fork', s', hs', hactive, hne, hname, -⟩ := (h.setLane_eq_error hs hnone).1 hset
        exact absurd (hnames fork' s'.exit ⟨s', hs', rfl, hactive⟩ hname) hne
  · have hopen : t.IsOpen fork s.exit := ⟨s, hs, rfl, congrArg Slot.active hopened⟩
    refine iff_of_true ?_ fun fork' exit' hopen' hname ↦ h.eq_of_isOpen hopen hopen' hname
    obtain ⟨f, hf, -⟩ := id hs
    obtain ⟨e, he⟩ : ∃ e, t.exits[s.exit]? = some e := ⟨_, getElem?_pos _ _ hexit⟩
    exact ⟨_, setLane_of_slot s he hf ((h.hasSlot_iff hf).1 hs)
      (by rw [congrArg Slot.lane? hopened]; rfl)⟩

theorem mem_of_setLane {active : Bool} (h : t.setLane fork exit active = .ok change) :
    fork ∈ t.forks ∧ exit ∈ t.exits := by
  obtain ⟨e, f, slot, he, hf, -⟩ := setLane_cases h
  exact ⟨of_getElem?_eq_some hf, of_getElem?_eq_some he⟩

/-- To open a lane takes the revision up by one if there is a new lane then. -/
theorem revision_of_open (h : t.setLane fork exit true = .ok change) :
    change.topology.revision + t.lanes.size = t.revision + change.topology.lanes.size := by
  obtain ⟨e, f, slot, -, -, -, hsame | ⟨-, -, hfree, hopen⟩ | ⟨hfalse, -⟩⟩ := setLane_cases h
  · rw [hsame.2]
  · rw [hopen]
    have hnew : (Lane.joining f e).id ∉ t.lanes := (getElem?_eq_none_iff _ _).1 hfree
    simp only [openLane, Std.ExtTreeMap.size_insert, Std.ExtTreeMap.contains_iff_mem, if_neg hnew]
    omega
  · cases hfalse

theorem Consistent.meshed_setLane (h : t.Consistent) (hm : t.Meshed) {active : Bool}
    (hset : t.setLane fork exit active = .ok change) : change.topology.Meshed := by
  have hdiffers := h.differsAt_setLane hset
  obtain ⟨g, slots, hg, hg', hslots⟩ := hdiffers.slots
  intro id f hf
  rw [hdiffers.exits]
  by_cases hid : id = fork
  · subst hid
    cases hg'.symm.trans hf
    have hexits : slots.map Slot.exit = g.slots.map Slot.exit := by
      rw [← List.forall₂_eq_eq_eq, List.forall₂_map_left_iff, List.forall₂_map_right_iff]
      exact (hslots.imp fun _ _ hs ↦ hs.1).flip
    rw [hexits, hm id g hg]
  · rw [hdiffers.forks id hid] at hf
    exact hm id f hf

/-- The second topology is the first one with more lanes open. -/
structure Opens (t t' : Topology) : Prop where
  built : t'.Built
  meshed : t'.Meshed
  places : t.SamePlaces t'
  revision : t'.revision + t.lanes.size = t.revision + t'.lanes.size

theorem Opens.setLane (h : t.Opens t') (hset : t'.setLane fork exit true = .ok change) :
    t.Opens change.topology where
  built := h.built.setLane hset
  meshed := h.built.consistent.meshed_setLane h.meshed hset
  places := h.places.trans (samePlaces_of_setLane h.built.keyed hset)
  revision := by
    have hrevision := revision_of_open hset
    have hbefore := h.revision
    omega

theorem SamePlaces.size_forks (h : t.SamePlaces t') : t.forks.size = t'.forks.size := by
  have hbare : t.forks.map (fun _ ↦ Fork.bare) = t'.forks.map fun _ ↦ Fork.bare := by
    refine Std.ExtTreeMap.ext_getElem? fun id ↦ ?_
    rw [Std.ExtTreeMap.getElem?_map, Std.ExtTreeMap.getElem?_map, h.forks]
  rw [← Std.ExtTreeMap.size_map (f := fun _ ↦ Fork.bare), hbare, Std.ExtTreeMap.size_map]

open Classical in
/-- Where all exits can be reached, the open lanes determine the slots. -/
theorem Meshed.slots_eq (hm : t.Meshed) (h : t.Consistent) {f : Fork}
    (hf : t.forks[fork]? = some f) : f.slots = t.exits.keys.map fun exit ↦
      if t.IsOpen fork exit then .opened exit (.between fork exit) else .closed exit := by
  rw [← hm fork f hf, List.map_map, eq_comm, ← List.map_id f.slots, List.map_map]
  refine List.map_congr_left fun s hs ↦ ?_
  have hslot : t.HasSlot fork s := ⟨f, hf, hs⟩
  show (if t.IsOpen fork s.exit then Slot.opened s.exit _ else .closed s.exit) = s
  rcases h.slot_cases fork s hslot with hclosed | ⟨lane, hopened⟩
  · rw [if_neg, ← hclosed]
    rintro ⟨s', hs', hexit, hactive⟩
    rw [h.slot_unique hs' hslot hexit, hclosed] at hactive
    cases hactive
  · rw [hopened] at hslot
    obtain ⟨rfl, -⟩ := h.exists_lane _ _ _ hslot
    rw [if_pos ⟨_, hslot, rfl, rfl⟩]
    exact hopened.symm

/-- Where all exits can be reached, the outline determines the forks: slots are listed in the order
of exits, and they are active where lanes are open. -/
theorem SameOutline.forks_eq (h : t.SameOutline t') (hm : t.Meshed) (hm' : t'.Meshed)
    (ht : t.Consistent) (ht' : t'.Consistent) : t.forks = t'.forks := by
  refine Std.ExtTreeMap.ext_getElem? fun id ↦ ?_
  have hbare := h.forks id
  cases hf : t.forks[id]? with
  | none =>
    rw [hf] at hbare
    exact (Option.map_eq_none_iff.1 hbare.symm).symm
  | some f =>
    rw [hf, Option.map_some, eq_comm, Option.map_eq_some_iff] at hbare
    obtain ⟨f', hf', hbare⟩ := hbare
    have hslots : f'.slots = f.slots := by
      rw [hm.slots_eq ht hf, hm'.slots_eq ht' hf', h.exits]
      classical
      simp only [h.isOpen_iff]
    rw [hf', Option.some_inj]
    calc f = { f.bare with slots := f.slots } := rfl
      _ = { f'.bare with slots := f'.slots } := by rw [hbare, hslots]

theorem SameElements.eq (h : t.SameElements t') (hrevision : t'.revision = t.revision) :
    t' = t := by
  cases t'
  obtain ⟨rfl, rfl, rfl, rfl⟩ := h
  cases hrevision
  rfl

end Topology

namespace Layout

variable {d d' : Layout} {t t' : Topology} {fork : ForkId} {exit : ExitId}

/-! ## Places -/

/-- Both ends of the lane are in the box. -/
def Admits (d : Layout) (lane : ForkId × ExitId) : Prop :=
  lane.1 ∈ d.forksInRange.map Place.id ∧ lane.2 ∈ d.exitsInRange.map Place.id

theorem describes_iff : d.describes fork exit = true ↔
    fork ∈ d.forks.map Place.id ∧ exit ∈ d.exits.map Place.id := by
  simp [describes]

/-- What is in the box is described. -/
theorem Admits.describes (h : d.Admits (fork, exit)) : d.describes fork exit = true :=
  describes_iff.2 ⟨List.map_subset _ (List.filter_subset_self _) h.1,
    List.map_subset _ (List.filter_subset_self _) h.2⟩

/-- All places in the box have directions. -/
def Directed (d : Layout) : Prop :=
  (∀ p ∈ d.forksInRange, ∃ f, p.fork? = .ok f) ∧ ∀ p ∈ d.exitsInRange, ∃ e, p.exit? = .ok e

/-- The places of the topology are those of the layout that are in the box. -/
structure Places (d : Layout) (t : Topology) : Prop where
  forks : ∀ (id : ForkId) (f : Fork), t.forks[id]?.map Fork.bare = some f ↔
    ∃ p ∈ d.forksInRange, p.id = id ∧ p.fork? = .ok f
  exits : ∀ (id : ExitId) (e : Exit), t.exits[id]? = some e ↔
    ∃ p ∈ d.exitsInRange, p.id = id ∧ p.exit? = .ok e

theorem Places.congr (h : d.Places t) (hplaces : t.SamePlaces t') : d.Places t' where
  forks id f := by rw [← hplaces.forks, h.forks]
  exits id e := by rw [← hplaces.exits, h.exits]

/-- Only the places in the box matter. -/
theorem Places.of_mem_iff (h : d.Places t) (hforks : ∀ p, p ∈ d.forksInRange ↔ p ∈ d'.forksInRange)
    (hexits : ∀ p, p ∈ d.exitsInRange ↔ p ∈ d'.exitsInRange) : d'.Places t where
  forks id f := by simp only [h.forks, hforks]
  exits id e := by simp only [h.exits, hexits]

/-- Records are found for the identifiers of the places, if all of these give records. -/
theorem isSome_iff_mem {r : Role} {ρ : Type} {ps : List (Place r)}
    {record? : Place r → Except CrossingError ρ} {look : Ident r → Option ρ}
    (hrecords : ∀ p ∈ ps, ∃ x, record? p = .ok x)
    (h : ∀ id x, look id = some x ↔ ∃ p ∈ ps, p.id = id ∧ record? p = .ok x) {id : Ident r} :
    (look id).isSome = true ↔ id ∈ ps.map Place.id := by
  rw [Option.isSome_iff_exists, List.mem_map]
  simp only [h]
  constructor
  · rintro ⟨x, p, hp, hid, -⟩
    exact ⟨p, hp, hid⟩
  · rintro ⟨p, hp, hid⟩
    obtain ⟨x, hx⟩ := hrecords p hp
    exact ⟨x, p, hp, hid, hx⟩

theorem Places.admits_iff (h : d.Places t) (hd : d.Directed) :
    d.Admits (fork, exit) ↔ fork ∈ t.forks ∧ exit ∈ t.exits := by
  rw [Admits, ← isSome_iff_mem hd.1 h.forks, ← isSome_iff_mem hd.2 h.exits, Option.isSome_map,
    Std.ExtTreeMap.mem_iff_isSome_getElem?, Std.ExtTreeMap.mem_iff_isSome_getElem?]

/-- The places in the box have identifiers of their own. -/
def Distinct (d : Layout) : Prop :=
  (d.forksInRange.map Place.id).Nodup ∧ (d.exitsInRange.map Place.id).Nodup

/-- The places can be registered if they have directions and identifiers of their own. -/
theorem exists_places?_iff : (∃ t, d.places? = .ok t) ↔ d.Directed ∧ d.Distinct := by
  have hempty : Topology.empty.Bare ∧ Topology.empty.exits = ∅ := ⟨.empty, rfl⟩
  constructor
  · rintro ⟨t, h⟩
    obtain ⟨t₁, hrun, h⟩ := bind_eq_ok_iff.1 h
    obtain ⟨t₂, hrun', -⟩ := bind_eq_ok_iff.1 h
    obtain ⟨hbare, hexits⟩ := foldlM_induction Topology.forkRegistry.keeps hrun hempty
    obtain ⟨hdirected, hdistinct⟩ :=
      (Topology.forkRegistry.exists_foldlM_iff hempty rfl).1 ⟨t₁, hrun⟩
    obtain ⟨hdirected', hdistinct'⟩ :=
      (Topology.exitRegistry.exists_foldlM_iff hbare hexits).1 ⟨t₂, hrun'⟩
    exact ⟨⟨hdirected, hdirected'⟩, hdistinct, hdistinct'⟩
  · rintro ⟨⟨hdirected, hdirected'⟩, hdistinct, hdistinct'⟩
    obtain ⟨t₁, hrun⟩ :=
      (Topology.forkRegistry.exists_foldlM_iff hempty rfl).2 ⟨hdirected, hdistinct⟩
    obtain ⟨hbare, hexits⟩ := foldlM_induction Topology.forkRegistry.keeps hrun hempty
    obtain ⟨t₂, hrun'⟩ :=
      (Topology.exitRegistry.exists_foldlM_iff hbare hexits).2 ⟨hdirected', hdistinct'⟩
    exact ⟨t₂.connectAll, bind_eq_ok_iff.2 ⟨t₁, hrun, bind_eq_ok_iff.2 ⟨t₂, hrun', rfl⟩⟩⟩

/-- The topology that `places?` gives is made of places that have been connected. -/
theorem exists_of_places? (h : d.places? = .ok t) :
    ∃ t₂ : Topology, t₂.Bare ∧ d.Places t₂ ∧ t = t₂.connectAll := by
  obtain ⟨t₁, hrun, h⟩ := bind_eq_ok_iff.1 h
  obtain ⟨t₂, hrun', h⟩ := bind_eq_ok_iff.1 h
  have hempty : Topology.empty.Bare ∧ Topology.empty.exits = ∅ := ⟨.empty, rfl⟩
  obtain ⟨hbare, hexits⟩ := foldlM_induction Topology.forkRegistry.keeps hrun hempty
  have hbare₂ := foldlM_induction Topology.exitRegistry.keeps hrun' hbare
  refine ⟨t₂, hbare₂, ⟨fun id f ↦ ?_, fun id e ↦ ?_⟩, (Except.ok.inj h).symm⟩
  · have hsame : t₂.forks[id]?.map Fork.bare = t₂.forks[id]? := by
      cases hg : t₂.forks[id]? with
      | none => rfl
      | some g =>
        have hslots := hbare₂.slots id g hg
        cases g
        cases hslots
        rfl
    rw [hsame, Topology.forks_of_addExits hrun']
    exact Topology.forkRegistry.getElem?_entries hempty rfl hrun
  · exact Topology.exitRegistry.getElem?_entries hbare hexits hrun'

/-! ## Lanes -/

theorem registered_iff : registered t fork exit = true ↔ fork ∈ t.forks ∧ exit ∈ t.exits := by
  simp [registered]

theorem Places.registered_iff_admits (h : d.Places t) (hd : d.Directed) (fork : ForkId)
    (exit : ExitId) : registered t fork exit = true ↔ d.Admits (fork, exit) := by
  rw [registered_iff, h.admits_iff hd]

/-- A lane outside the box is left out, and any other one is opened. -/
theorem openLane?_eq_ok_iff {draft draft' : Draft} :
    d.openLane? draft (fork, exit) = .ok draft' ↔
      (registered draft.1 fork exit = false ∧ d.describes fork exit = true ∧ draft' = draft) ∨
        ∃ change, draft.1.setLane fork exit true = .ok change ∧
          draft' = (change.topology, draft.2 ++ change.notice?.toList) := by
  rw [openLane?]
  constructor
  · intro h
    split at h
    · rename_i hskip
      cases h
      exact .inl ⟨by simpa using (Bool.and_eq_true_iff.1 hskip).1, (Bool.and_eq_true_iff.1 hskip).2,
        rfl⟩
    · exact .inr (exists_of_map_eq_ok h)
  · rintro (⟨hout, hdescribes, rfl⟩ | ⟨change, hchange, rfl⟩)
    · simp [hout, hdescribes]
    · simp [registered_iff.2 (Topology.mem_of_setLane hchange), hchange, Except.map]

/-- A lane is no error if its ends are described and it can be opened in case that they are in the
box. -/
theorem exists_openLane?_iff {draft : Draft}
    (hadmits : registered draft.1 fork exit = true ↔ d.Admits (fork, exit)) :
    (∃ draft', d.openLane? draft (fork, exit) = .ok draft') ↔ d.describes fork exit = true ∧
      (d.Admits (fork, exit) → ∃ change, draft.1.setLane fork exit true = .ok change) := by
  constructor
  · rintro ⟨draft', h⟩
    rcases openLane?_eq_ok_iff.1 h with ⟨hout, hdescribes, -⟩ | ⟨change, hchange, -⟩
    · exact ⟨hdescribes, fun hin ↦ by cases hout.symm.trans (hadmits.2 hin)⟩
    · have hin := hadmits.1 (registered_iff.2 (Topology.mem_of_setLane hchange))
      exact ⟨hin.describes, fun _ ↦ ⟨change, hchange⟩⟩
  · rintro ⟨hdescribes, hset⟩
    by_cases hin : d.Admits (fork, exit)
    · obtain ⟨change, hchange⟩ := hset hin
      exact ⟨_, openLane?_eq_ok_iff.2 (.inr ⟨change, hchange, rfl⟩)⟩
    · have hout := Bool.eq_false_iff.2 fun h ↦ hin (hadmits.1 h)
      exact ⟨draft, openLane?_eq_ok_iff.2 (.inl ⟨hout, hdescribes, rfl⟩)⟩

/-- A lane is taken in if the layout describes its ends and, in case that they are in the box, no
other lane of its name is open. -/
theorem laneIntake (hplaces : d.Places t) (hd : d.Directed) :
    Intake d.openLane? (fun draft ↦ t.Opens draft.1) (fun draft lane ↦ draft.1.IsOpen lane.1 lane.2)
      (fun lane ↦ d.describes lane.1 lane.2 = true)
      (fun lane lane' ↦ d.Admits lane' →
        Ident.between lane.1 lane.2 = .between lane'.1 lane'.2 → lane = lane')
      (fun lane lane' ↦ d.Admits lane ∧ lane = lane') where
  keeps := by
    rintro draft ⟨fork, exit⟩ draft' h hopens
    rcases openLane?_eq_ok_iff.1 h with ⟨-, -, rfl⟩ | ⟨change, hchange, rfl⟩
    · exact hopens
    · exact hopens.setLane hchange
  exists_iff := by
    rintro draft ⟨fork, exit⟩ hopens
    have hadmits := (hplaces.congr hopens.places).registered_iff_admits hd fork exit
    have hset (hin : d.Admits (fork, exit)) :=
      hopens.meshed.exists_setLane_iff hopens.built.consistent (registered_iff.1 (hadmits.2 hin)).1
        (registered_iff.1 (hadmits.2 hin)).2
    rw [exists_openLane?_iff hadmits]
    refine and_congr_right fun _ ↦ ⟨fun hchange lane hopen hin hname ↦ ?_, fun hfits hin ↦ ?_⟩
    · exact (hset hin).1 (hchange hin) lane.1 lane.2 hopen hname
    · exact (hset hin).2 fun fork' exit' hopen hname ↦ hfits (fork', exit') hopen hin hname
  has_iff := by
    rintro draft ⟨fork, exit⟩ draft' h hopens ⟨fork', exit'⟩
    have hadmits := (hplaces.congr hopens.places).registered_iff_admits hd fork exit
    rcases openLane?_eq_ok_iff.1 h with ⟨hout, -, rfl⟩ | ⟨change, hchange, rfl⟩
    · have hnotIn : ¬ d.Admits (fork, exit) := fun hin ↦ by
        cases hout.symm.trans (hadmits.2 hin)
      simp [hnotIn]
    · have hin := hadmits.1 (registered_iff.2 (Topology.mem_of_setLane hchange))
      rw [hopens.built.consistent.isOpen_setLane hchange, Prod.mk.injEq]
      by_cases hpair : fork = fork' ∧ exit = exit'
      · obtain ⟨rfl, rfl⟩ := hpair
        simp [hin]
      · simp [hpair]

/-! ## The crossing that a layout describes -/

/-- Nothing in the layout speaks against it. -/
structure Coherent (d : Layout) : Prop where
  forks : (d.forksInRange.map Place.id).Nodup
  exits : (d.exitsInRange.map Place.id).Nodup
  fork_direction : ∀ p ∈ d.forksInRange,
    (Topology.direction p.id.constant p.location p.forward).isOk = true
  exit_direction : ∀ p ∈ d.exitsInRange,
    (Topology.direction p.id.constant p.location p.forward).isOk = true
  /-- The ends of the lanes are described, in the box or not. -/
  lane_ends : ∀ lane ∈ d.lanes,
    lane.1 ∈ d.forks.map Place.id ∧ lane.2 ∈ d.exits.map Place.id
  /-- Lanes of one name are one lane, if their ends are in the box. -/
  lane_names : ∀ lane ∈ d.lanes, ∀ lane' ∈ d.lanes, d.Admits lane → d.Admits lane' →
    Ident.between lane.1 lane.2 = .between lane'.1 lane'.2 → lane = lane'

theorem directed_iff : d.Directed ↔
    (∀ p ∈ d.forksInRange, (Topology.direction p.id.constant p.location p.forward).isOk = true) ∧
    ∀ p ∈ d.exitsInRange, (Topology.direction p.id.constant p.location p.forward).isOk = true := by
  simp only [Directed, Place.fork?, Place.exit?, exists_map_eq_ok_iff, isOk_iff]

/-- The topology is what the layout describes. -/
structure Depicts (d : Layout) (t : Topology) : Prop extends d.Places t where
  built : t.Built
  meshed : t.Meshed
  isOpen_iff : ∀ fork exit, t.IsOpen fork exit ↔ (fork, exit) ∈ d.lanes ∧ d.Admits (fork, exit)
  /-- Every place, every slot and every open lane has been one change. -/
  revision : t.revision = t.forks.size + t.exits.size + t.forks.size * t.exits.size + t.lanes.size

/-- To start with, the topology is what the layout would describe without its lanes. -/
theorem depicts_of_places? (h : d.places? = .ok t) : Depicts { d with lanes := [] } t := by
  have hbuilt := built_of_places? h
  obtain ⟨t₂, hbare, hplaces, rfl⟩ := exists_of_places? h
  have hsame := Topology.samePlaces_connectAll t₂
  have hlanes : t₂.connectAll.lanes = ∅ := hbare.lanes
  refine ⟨(hplaces.congr hsame).of_mem_iff (fun _ ↦ .rfl) fun _ ↦ .rfl, hbuilt,
    hbare.meshed_connectAll, fun fork exit ↦ ?_, ?_⟩
  · exact iff_of_false (hbare.not_isOpen_connectAll fork exit) fun h ↦ List.not_mem_nil h.1
  · rw [hbare.revision_connectAll, hsame.size_forks, hsame.exits, hlanes, Std.ExtTreeMap.size_empty]
    rfl

/-- The lanes can be opened one by one after that. -/
theorem opens_of_places? (h : d.places? = .ok t) : d.Places t ∧ d.Directed ∧ t.Opens t := by
  have hstart := depicts_of_places? h
  exact ⟨hstart.of_mem_iff (fun _ ↦ .rfl) fun _ ↦ .rfl, (exists_places?_iff.1 ⟨t, h⟩).1,
    hstart.built, hstart.meshed, .refl t, rfl⟩

theorem depicts_of_build? {draft : Draft} (h : d.build? = .ok draft) : d.Depicts draft.1 := by
  obtain ⟨t, hplaces?, hrun⟩ := bind_eq_ok_iff.1 h
  obtain ⟨hplaces, hdirected, hopens⟩ := opens_of_places? hplaces?
  have hstart := depicts_of_places? hplaces?
  have hintake := laneIntake hplaces hdirected
  have hopens' := foldlM_induction hintake.keeps hrun hopens
  refine ⟨hplaces.congr hopens'.places, hopens'.built, hopens'.meshed, fun fork exit ↦ ?_, ?_⟩
  · rw [hintake.foldlM_has_iff hopens hrun (fork, exit), hstart.isOpen_iff]
    simp
  · have hrevision := hstart.revision
    have hlanes := hopens'.revision
    rw [hopens'.places.size_forks, hopens'.places.exits] at hrevision
    omega

/-- The lanes can be opened if their ends are described and no two of one name are in the box. -/
theorem exists_lanes_iff (h : d.places? = .ok t) :
    (∃ draft, d.lanes.foldlM d.openLane? (t, []) = .ok draft) ↔
      (∀ lane ∈ d.lanes, d.describes lane.1 lane.2 = true) ∧
        ∀ lane ∈ d.lanes, ∀ lane' ∈ d.lanes, d.Admits lane → d.Admits lane' →
          Ident.between lane.1 lane.2 = .between lane'.1 lane'.2 → lane = lane' := by
  obtain ⟨hplaces, hdirected, hopens⟩ := opens_of_places? h
  rw [(laneIntake hplaces hdirected).exists_foldlM_iff hopens]
  refine and_congr_right fun _ ↦ ⟨fun ⟨_, hpairs⟩ ↦ ?_, fun hnames ↦ ⟨fun _ _ lane hopen ↦ ?_, ?_⟩⟩
  · -- the order of two lanes does not matter to whether they go together
    have : Std.Symm fun lane lane' : ForkId × ExitId ↦ d.Admits lane → d.Admits lane' →
        Ident.between lane.1 lane.2 = .between lane'.1 lane'.2 → lane = lane' :=
      ⟨fun _ _ h hin hin' hname ↦ (h hin' hin hname.symm).symm⟩
    exact List.Pairwise.forall_of_forall (fun _ _ _ _ _ ↦ rfl)
      (hpairs.imp fun h hin hin' hname ↦ h _ ⟨hin, rfl⟩ hin' hname)
  · exact absurd (((depicts_of_places? h).isOpen_iff _ _).1 hopen).1 List.not_mem_nil
  · refine List.pairwise_of_forall_mem_list fun lane hlane lane' hlane' ↦ ?_
    rintro _ ⟨hin, rfl⟩ hin' hname
    exact hnames lane hlane lane' hlane' hin hin' hname

/-- **A layout describes a crossing if nothing in it speaks against it.** -/
theorem exists_build?_iff : (∃ draft, d.build? = .ok draft) ↔ d.Coherent := by
  constructor
  · rintro ⟨draft, h⟩
    obtain ⟨t, hplaces, hrun⟩ := bind_eq_ok_iff.1 h
    obtain ⟨hdirected, hforks, hexits⟩ := exists_places?_iff.1 ⟨t, hplaces⟩
    obtain ⟨hdescribes, hnames⟩ := (exists_lanes_iff hplaces).1 ⟨draft, hrun⟩
    obtain ⟨hforks', hexits'⟩ := directed_iff.1 hdirected
    exact ⟨hforks, hexits, hforks', hexits',
      fun lane hlane ↦ describes_iff.1 (hdescribes lane hlane), hnames⟩
  · intro h
    obtain ⟨t, hplaces⟩ := exists_places?_iff.2
      ⟨directed_iff.2 ⟨h.fork_direction, h.exit_direction⟩, h.forks, h.exits⟩
    obtain ⟨draft, hrun⟩ := (exists_lanes_iff hplaces).2
      ⟨fun lane hlane ↦ describes_iff.2 (h.lane_ends lane hlane), h.lane_names⟩
    exact ⟨draft, bind_eq_ok_iff.2 ⟨t, hplaces, hrun⟩⟩

/-! ## Layouts in another order -/

/-- **A layout describes one crossing only.** -/
theorem Depicts.eq (h : d.Depicts t) (h' : d.Depicts t') : t = t' := by
  have hexits : t.exits = t'.exits := Std.ExtTreeMap.ext_getElem? fun id ↦ Option.ext fun e ↦
    (h.exits id e).trans (h'.exits id e).symm
  have houtline : t.SameOutline t' :=
    ⟨⟨fun id ↦ Option.ext fun f ↦ (h.forks id f).trans (h'.forks id f).symm, hexits⟩,
      fun fork exit ↦ (h.isOpen_iff fork exit).trans (h'.isOpen_iff fork exit).symm⟩
  have hlanes := houtline.lanes_eq h.built h'.built
  have hforks := houtline.forks_eq h.meshed h'.meshed h.built.consistent h'.built.consistent
  have hsame := h'.built.consistent.sameElements h.built.consistent hforks hexits hlanes
  refine hsame.eq ?_
  rw [h.revision, h'.revision, hforks, hexits, hlanes]

/-- The second layout has the same box as the first one and the same places in some order, and it
lists the same lanes and overlaps, in any order and however often. -/
structure Rearranges (d d' : Layout) : Prop where
  center : d'.center = d.center
  extent : d'.extent = d.extent
  yaw : d'.yaw = d.yaw
  forks : d.forks.Perm d'.forks
  exits : d.exits.Perm d'.exits
  lanes : ∀ lane, lane ∈ d.lanes ↔ lane ∈ d'.lanes
  overlaps : ∀ pair, pair ∈ d.overlaps ↔ pair ∈ d'.overlaps
  corridorHalfWidth? : d'.corridorHalfWidth? = d.corridorHalfWidth?

namespace Rearranges

theorem symm (h : d.Rearranges d') : d'.Rearranges d where
  center := h.center.symm
  extent := h.extent.symm
  yaw := h.yaw.symm
  forks := h.forks.symm
  exits := h.exits.symm
  lanes lane := (h.lanes lane).symm
  overlaps pair := (h.overlaps pair).symm
  corridorHalfWidth? := h.corridorHalfWidth?.symm

theorem inRange_eq (h : d.Rearranges d') : d'.inRange = d.inRange := by
  funext location
  simp only [inRange, h.center, h.extent, h.yaw]

theorem forksInRange (h : d.Rearranges d') : d.forksInRange.Perm d'.forksInRange := by
  rw [Layout.forksInRange, Layout.forksInRange, h.inRange_eq]
  exact h.forks.filter _

theorem exitsInRange (h : d.Rearranges d') : d.exitsInRange.Perm d'.exitsInRange := by
  rw [Layout.exitsInRange, Layout.exitsInRange, h.inRange_eq]
  exact h.exits.filter _

theorem admits_iff (h : d.Rearranges d') {lane : ForkId × ExitId} :
    d.Admits lane ↔ d'.Admits lane :=
  and_congr (h.forksInRange.map _).mem_iff (h.exitsInRange.map _).mem_iff

theorem coherent (h : d.Rearranges d') (hd : d.Coherent) : d'.Coherent where
  forks := (h.forksInRange.map _).nodup_iff.1 hd.forks
  exits := (h.exitsInRange.map _).nodup_iff.1 hd.exits
  fork_direction p hp := hd.fork_direction p (h.forksInRange.mem_iff.2 hp)
  exit_direction p hp := hd.exit_direction p (h.exitsInRange.mem_iff.2 hp)
  lane_ends lane hlane := by
    rw [← (h.forks.map _).mem_iff, ← (h.exits.map _).mem_iff]
    exact hd.lane_ends lane ((h.lanes lane).2 hlane)
  lane_names lane hlane lane' hlane' hin hin' := hd.lane_names lane ((h.lanes lane).2 hlane) lane'
    ((h.lanes lane').2 hlane') (h.admits_iff.2 hin) (h.admits_iff.2 hin')

theorem depicts (h : d.Rearranges d') (ht : d.Depicts t) : d'.Depicts t where
  toPlaces := ht.of_mem_iff (fun _ ↦ h.forksInRange.mem_iff) fun _ ↦ h.exitsInRange.mem_iff
  built := ht.built
  meshed := ht.meshed
  isOpen_iff fork exit := by rw [ht.isOpen_iff, h.lanes, h.admits_iff]
  revision := ht.revision

theorem exists_build? (h : d.Rearranges d') {t : Topology} {notices : List Notice}
    (ht : d.build? = .ok (t, notices)) : ∃ notices', d'.build? = .ok (t, notices') := by
  obtain ⟨⟨t', notices'⟩, ht'⟩ := exists_build?_iff.2 (h.coherent (exists_build?_iff.1 ⟨_, ht⟩))
  obtain rfl : t = t' := (h.depicts (depicts_of_build? ht)).eq (depicts_of_build? ht')
  exact ⟨notices', ht'⟩

theorem probe_eq (h : d.Rearranges d') : d'.probe = d.probe := by
  rw [probe, probe, h.corridorHalfWidth?, DeclaredOverlaps.probe_ofPairs_congr h.overlaps]

end Rearranges

/-! ## Summary -/

/-- **A layout describes one crossing, in whatever order.**

* It can be built if and only if no two forks and no two exits in the box have one identifier, all
  places in the box have directions, the ends of all lanes are described, in the box or not, and no
  two lanes between places in the box have one name.
* The forks and exits are those in the box.  Every fork has one slot for each exit, in the order of
  the exits, and the open lanes are those listed whose ends are in the box.
* Places in another order, and lanes and overlaps in another order or more than once, give the same
  crossing, with the same revision, and the same facts. -/
theorem build_exact (d : Layout) :
    (d.build?.isOk = true ↔ d.Coherent) ∧
    (∀ t notices, d.build? = .ok (t, notices) →
      (∀ (id : ForkId) (f : Fork), t.forks[id]?.map Fork.bare = some f ↔
        ∃ p ∈ d.forksInRange, p.id = id ∧ p.fork? = .ok f) ∧
      (∀ (id : ExitId) (e : Exit), t.exits[id]? = some e ↔
        ∃ p ∈ d.exitsInRange, p.id = id ∧ p.exit? = .ok e) ∧
      (∀ (id : ForkId) (f : Fork), t.forks[id]? = some f →
        (f.slots.map Slot.exit).Pairwise (fun a b ↦ compare a b = .lt) ∧
        ∀ exit, exit ∈ f.slots.map Slot.exit ↔ exit ∈ t.exits) ∧
      (∀ fork exit, t.IsOpen fork exit ↔ (fork, exit) ∈ d.lanes ∧ d.Admits (fork, exit)) ∧
      ∀ fork exit, t.IsOpen fork exit ↔
        (fork, exit) ∈ t.lanes.values.map fun lane ↦ (lane.fork, lane.exit)) ∧
    ∀ d', d.Rearranges d' →
      d'.build?.isOk = d.build?.isOk ∧
      (∀ t, (∃ notices, d'.build? = .ok (t, notices)) ↔ ∃ notices, d.build? = .ok (t, notices)) ∧
      ∀ t, Facts.compile t d'.probe = Facts.compile t d.probe := by
  have hok : ∀ d : Layout, d.build?.isOk = true ↔ d.Coherent := fun d ↦
    isOk_iff.trans exists_build?_iff
  refine ⟨hok d, fun t notices h ↦ ?_, fun d' h ↦ ⟨?_, fun t ↦ ⟨?_, ?_⟩, fun t ↦ ?_⟩⟩
  · have hdepicts := depicts_of_build? h
    refine ⟨hdepicts.forks, hdepicts.exits, fun id f hf ↦ ?_, hdepicts.isOpen_iff,
      fun fork exit ↦ hdepicts.built.consistent.isOpen_iff_mem⟩
    rw [hdepicts.meshed id f hf]
    exact ⟨Std.ExtTreeMap.ordered_keys, fun exit ↦ Std.ExtTreeMap.mem_keys⟩
  · rw [Bool.eq_iff_iff, hok, hok]
    exact ⟨h.symm.coherent, h.coherent⟩
  · rintro ⟨notices, ht⟩
    exact h.symm.exists_build? ht
  · rintro ⟨notices, ht⟩
    exact h.exists_build? ht
  · rw [h.probe_eq]

end Layout

namespace Bend

/-- The bend with a side road and two lanes. -/
def plan : Layout := { Layout.blank with
  forks := [⟨farm, ⟨-1000, 0, 0⟩, ⟨1, 0, 0⟩⟩, ⟨barn, ⟨0, -1000, 0⟩, ⟨0, 1, 0⟩⟩]
  exits := [⟨mill, ⟨1000, 0, 0⟩, ⟨1, 0, 0⟩⟩, ⟨church, ⟨0, 1000, 0⟩, ⟨0, 1, 0⟩⟩]
  lanes := [(farm, mill), (barn, church)] }

/-- The same bend the other way around, with one of the lanes listed twice. -/
def reversedPlan : Layout := { plan with
  forks := plan.forks.reverse
  exits := plan.exits.reverse
  lanes := (farm, mill) :: plan.lanes.reverse }

theorem coherent_plan : plan.Coherent where
  forks := (List.filter_sublist.map _).nodup (by decide)
  exits := (List.filter_sublist.map _).nodup (by decide)
  fork_direction p hp := by
    have hall : ∀ p ∈ plan.forks,
        (Topology.direction p.id.constant p.location p.forward).isOk = true := by decide +kernel
    exact hall p (List.mem_of_mem_filter hp)
  exit_direction p hp := by
    have hall : ∀ p ∈ plan.exits,
        (Topology.direction p.id.constant p.location p.forward).isOk = true := by decide +kernel
    exact hall p (List.mem_of_mem_filter hp)
  lane_ends := by decide
  lane_names lane hlane lane' hlane' _ _ := by
    have hall : ∀ lane ∈ plan.lanes, ∀ lane' ∈ plan.lanes,
        Ident.between lane.1 lane.2 = .between lane'.1 lane'.2 → lane = lane' := by decide
    exact hall lane hlane lane' hlane'

theorem rearranges_plan : plan.Rearranges reversedPlan where
  center := rfl
  extent := rfl
  yaw := rfl
  forks := plan.forks.reverse_perm.symm
  exits := plan.exits.reverse_perm.symm
  lanes lane := by
    refine ⟨fun h ↦ List.mem_cons_of_mem _ (List.mem_reverse.2 h), fun h ↦ ?_⟩
    rcases List.mem_cons.1 h with rfl | h
    · exact List.mem_cons_self
    · exact List.mem_reverse.1 h
  overlaps _ := .rfl
  corridorHalfWidth? := rfl

end Bend

/-- The bend can be built, and the other way around it is the same crossing. -/
theorem Layout.build_exact_bend :
    ∃ t notices, Bend.plan.build? = .ok (t, notices) ∧
      (t.IsOpen Bend.barn Bend.church ↔ Bend.plan.Admits (Bend.barn, Bend.church)) ∧
      ¬ t.IsOpen Bend.barn Bend.mill ∧
      ∃ notices', Bend.reversedPlan.build? = .ok (t, notices') := by
  obtain ⟨hok, hbuilt, horder⟩ := build_exact Bend.plan
  obtain ⟨⟨t, notices⟩, ht⟩ := exists_of_isOk (hok.2 Bend.coherent_plan)
  obtain ⟨-, -, -, hopen, -⟩ := hbuilt t notices ht
  obtain ⟨-, hsame, -⟩ := horder _ Bend.rearranges_plan
  refine ⟨t, notices, ht, ?_, ?_, (hsame t).2 ⟨notices, ht⟩⟩
  · rw [hopen]
    exact and_iff_right (by decide)
  · rw [hopen]
    exact fun h ↦ absurd h.1 (by decide)

end RightOfWay
