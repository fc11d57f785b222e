import RightOfWay.Proofs.Crossing.Outline

/-!
# Registered places

To set a crossing up is to register its forks and its exits one by one, and then to make every exit
reachable from every fork.

* `Place.fork?` and `Place.exit?` are the records that places give.
* A `Registry` is a way to register places.  It takes a list of them exactly if their identifiers
  differ and all of them give records (`Registry.exists_foldlM_iff`), and has these records then
  (`Registry.getElem?_entries`).  There is one for forks and one for exits.
* `Topology.Bare` says that nothing but places has been registered, and `Topology.Meshed` that every
  exit can be reached from every fork.
-/

set_option autoImplicit false

namespace RightOfWay

namespace Place

/-- The fork at the place, from which no exit can be reached yet. -/
def fork? (p : Place .fork) : Except CrossingError Fork :=
  (Topology.direction p.id.constant p.location p.forward).map fun unit ↦
    ⟨p.id, p.location, unit, []⟩

/-- The exit at the place. -/
def exit? (p : Place .exit) : Except CrossingError Exit :=
  (Topology.direction p.id.constant p.location p.forward).map fun unit ↦ ⟨p.id, p.location, unit⟩

end Place

/-! ## Registries -/

/-- The step registers a place whose identifier is new and which gives a record, and keeps the
record under the identifier. -/
structure Registry {r : Role} {ρ : Type}
    (step : Topology → Place r → Except CrossingError Topology) (inv : Topology → Prop)
    (entries : Topology → Std.ExtTreeMap (Ident r) ρ) (record? : Place r → Except CrossingError ρ) :
    Prop where
  keeps : ∀ t p t', step t p = .ok t' → inv t → inv t'
  exists_iff : ∀ t p, inv t →
    ((∃ t', step t p = .ok t') ↔ (∃ x, record? p = .ok x) ∧ p.id ∉ entries t)
  entries_eq : ∀ t p t', step t p = .ok t' → ∃ x, record? p = .ok x ∧
    entries t' = (entries t).insert p.id x

namespace Registry

variable {r : Role} {ρ : Type} {step : Topology → Place r → Except CrossingError Topology}
  {inv : Topology → Prop} {entries : Topology → Std.ExtTreeMap (Ident r) ρ}
  {record? : Place r → Except CrossingError ρ} {ps : List (Place r)} {t t' : Topology}

theorem intake (h : Registry step inv entries record?) :
    Intake step inv (fun t (x : Ident r × ρ) ↦ (entries t)[x.1]? = some x.2)
      (fun p ↦ ∃ x, record? p = .ok x) (fun x p ↦ x.1 ≠ p.id)
      (fun p x ↦ p.id = x.1 ∧ record? p = .ok x.2) where
  keeps := h.keeps
  exists_iff t p ht := by
    rw [h.exists_iff t p ht]
    refine and_congr_right fun _ ↦ ⟨?_, fun hnew hmem ↦ ?_⟩
    · rintro hnew ⟨id, x⟩ hx rfl
      exact hnew (of_getElem?_eq_some hx)
    · exact hnew (p.id, (entries t)[p.id]) (getElem?_pos _ _ hmem) rfl
  has_iff t p t' hstep ht := by
    rintro ⟨id, y⟩
    obtain ⟨-, hnew⟩ := (h.exists_iff t p ht).1 ⟨t', hstep⟩
    obtain ⟨x, hx, hentries⟩ := h.entries_eq t p t' hstep
    simp only [hentries, hx, Std.ExtTreeMap.getElem?_insert, Std.LawfulEqCmp.compare_eq_iff_eq]
    by_cases hid : p.id = id
    · subst hid
      simp [hnew]
    · simp [hid]

/-- **Places can be registered if their identifiers differ and all give records.** -/
theorem exists_foldlM_iff (h : Registry step inv entries record?) (ht : inv t)
    (hempty : entries t = ∅) : (∃ t', ps.foldlM step t = .ok t') ↔
      (∀ p ∈ ps, ∃ x, record? p = .ok x) ∧ (ps.map Place.id).Nodup := by
  rw [h.intake.exists_foldlM_iff ht, List.Nodup, List.pairwise_map]
  refine and_congr_right fun hrecords ↦ ⟨fun ⟨_, hpairs⟩ ↦ ?_, fun hpairs ↦ ⟨?_, ?_⟩⟩
  · refine hpairs.imp_of_mem fun {p q} hp _ hpq ↦ ?_
    obtain ⟨x, hx⟩ := hrecords p hp
    exact hpq (p.id, x) ⟨rfl, hx⟩
  · rintro p - x hx
    simp [hempty] at hx
  · refine hpairs.imp fun {p q} hpq x hx ↦ ?_
    rwa [← hx.1]

/-- The records are those of the places. -/
theorem getElem?_entries (h : Registry step inv entries record?) (ht : inv t)
    (hempty : entries t = ∅) (hrun : ps.foldlM step t = .ok t') {id : Ident r} {x : ρ} :
    (entries t')[id]? = some x ↔ ∃ p ∈ ps, p.id = id ∧ record? p = .ok x := by
  rw [h.intake.foldlM_has_iff ht hrun (id, x), hempty]
  simp

end Registry

namespace Topology

variable {t t' : Topology}

/-! ## Places and nothing else -/

/-- Nothing but places has been registered. -/
structure Bare (t : Topology) : Prop where
  built : t.Built
  slots : ∀ (id : ForkId) (f : Fork), t.forks[id]? = some f → f.slots = []
  lanes : t.lanes = ∅
  revision : t.revision = t.forks.size + t.exits.size

theorem Bare.empty : Topology.empty.Bare where
  built := .empty
  slots id f hf := by simp [Topology.empty] at hf
  lanes := rfl
  revision := rfl

theorem Consistent.contains_iff (h : t.Consistent) {c : String} :
    t.kinds.contains c = true ↔ ∃ kind, t.Registers kind c := by
  rw [Std.ExtTreeMap.contains_iff_mem, Std.ExtTreeMap.mem_iff_isSome_getElem?,
    Option.isSome_iff_exists]
  exact exists_congr fun kind ↦ h.kinds c kind

/-- The constant of a fork is known if the fork is registered. -/
theorem Consistent.contains_fork (h : t.Consistent) {id : ForkId} :
    t.kinds.contains id.constant = true ↔ id ∈ t.forks := by
  rw [h.contains_iff]
  refine ⟨?_, fun hid ↦ ⟨.entry, id, hid, rfl⟩⟩
  rintro ⟨_ | _ | _, i, hi, heq⟩
  · rwa [← Ident.constant_injective heq]
  · exact absurd heq (Ident.constant_ne (by decide) i id)
  · exact absurd heq (Ident.constant_ne (by decide) i id)

/-- The constant of an exit is known if the exit is registered. -/
theorem Consistent.contains_exit (h : t.Consistent) {id : ExitId} :
    t.kinds.contains id.constant = true ↔ id ∈ t.exits := by
  rw [h.contains_iff]
  refine ⟨?_, fun hid ↦ ⟨.exit, id, hid, rfl⟩⟩
  rintro ⟨_ | _ | _, i, hi, heq⟩
  · exact absurd heq (Ident.constant_ne (by decide) i id)
  · rwa [← Ident.constant_injective heq]
  · exact absurd heq (Ident.constant_ne (by decide) i id)

theorem addFork_place (p : Place .fork) : t.addFork p.id p.location p.forward =
    if t.kinds.contains p.id.constant then .error (.duplicateElement p.id.constant)
    else p.fork?.map fun f ↦ { t with
      forks := t.forks.insert p.id f
      kinds := t.kinds.insert p.id.constant .entry
      revision := t.revision + 1 } := by
  rw [addFork, Place.fork?]
  cases direction p.id.constant p.location p.forward <;> rfl

theorem addExit_place (p : Place .exit) : t.addExit p.id p.location p.forward =
    if t.kinds.contains p.id.constant then .error (.duplicateElement p.id.constant)
    else p.exit?.map fun e ↦ { t with
      exits := t.exits.insert p.id e
      kinds := t.kinds.insert p.id.constant .exit
      revision := t.revision + 1 } := by
  rw [addExit, Place.exit?]
  cases direction p.id.constant p.location p.forward <;> rfl

/-- Forks are registered before there are exits. -/
theorem forkRegistry : Registry (fun t (p : Place .fork) ↦ t.addFork p.id p.location p.forward)
    (fun t ↦ t.Bare ∧ t.exits = ∅) Topology.forks Place.fork? where
  keeps t p t' hadd := by
    rintro ⟨ht, hexits⟩
    have hbuilt := ht.built.addFork hadd
    obtain ⟨hfresh, unit, rfl⟩ := addFork_eq_ok hadd
    refine ⟨⟨hbuilt, forall_getElem?_insert ht.slots rfl, ht.lanes, ?_⟩, hexits⟩
    have hnew := ht.built.consistent.notMem_forks hfresh
    simp only [ht.revision, Std.ExtTreeMap.size_insert, Std.ExtTreeMap.contains_iff_mem,
      if_neg hnew]
    omega
  exists_iff t p ht := by
    simp only [addFork_place, ht.1.built.consistent.contains_fork]
    by_cases hmem : p.id ∈ t.forks
    · simp [hmem]
    · simp [hmem, exists_map_eq_ok_iff]
  entries_eq t p t' hadd := by
    rw [addFork_place] at hadd
    split at hadd
    · cases hadd
    · obtain ⟨f, hf, rfl⟩ := exists_of_map_eq_ok hadd
      exact ⟨f, hf, rfl⟩

/-- Exits are registered when there are no ways to them yet. -/
theorem exitRegistry : Registry (fun t (p : Place .exit) ↦ t.addExit p.id p.location p.forward)
    Bare Topology.exits Place.exit? where
  keeps t p t' hadd ht := by
    have hbuilt := ht.built.addExit hadd
    obtain ⟨hfresh, unit, rfl⟩ := addExit_eq_ok hadd
    refine ⟨hbuilt, ht.slots, ht.lanes, ?_⟩
    have hnew := ht.built.consistent.notMem_exits hfresh
    simp only [ht.revision, Std.ExtTreeMap.size_insert, Std.ExtTreeMap.contains_iff_mem,
      if_neg hnew]
    omega
  exists_iff t p ht := by
    simp only [addExit_place, ht.built.consistent.contains_exit]
    by_cases hmem : p.id ∈ t.exits
    · simp [hmem]
    · simp [hmem, exists_map_eq_ok_iff]
  entries_eq t p t' hadd := by
    rw [addExit_place] at hadd
    split at hadd
    · cases hadd
    · obtain ⟨e, he, rfl⟩ := exists_of_map_eq_ok hadd
      exact ⟨e, he, rfl⟩

theorem forks_of_addExits {ps : List (Place .exit)}
    (hrun : ps.foldlM (fun t p ↦ t.addExit p.id p.location p.forward) t = .ok t') :
    t'.forks = t.forks := by
  refine foldlM_induction (P := fun t' ↦ t'.forks = t.forks) (fun t₁ p t₂ hadd ht₁ ↦ ?_) hrun rfl
  obtain ⟨-, unit, rfl⟩ := addExit_eq_ok hadd
  exact ht₁

/-! ## All exits reachable -/

/-- Every exit can be reached from every fork, in the order of the exits. -/
def Meshed (t : Topology) : Prop :=
  ∀ (id : ForkId) (f : Fork), t.forks[id]? = some f → f.slots.map Slot.exit = t.exits.keys

theorem Bare.unconnected_keys (h : t.Bare) {id : ForkId} {f : Fork} (hf : t.forks[id]? = some f) :
    f.unconnected t.exits.keys = t.exits.keys := by
  simp [Fork.unconnected, Fork.slot?, h.slots id f hf]

theorem Bare.meshed_connectAll (h : t.Bare) : t.connectAll.Meshed := by
  intro id f hf
  rw [connectAll, Std.ExtTreeMap.getElem?_map, Option.map_eq_some_iff] at hf
  obtain ⟨g, hg, rfl⟩ := hf
  simp [Fork.connect, h.slots id g hg, h.unconnected_keys hg, Slot.closed, connectAll,
    Function.comp_def]

theorem Bare.not_isOpen_connectAll (h : t.Bare) (fork : ForkId) (exit : ExitId) :
    ¬ t.connectAll.IsOpen fork exit := by
  rintro ⟨s, ⟨f, hf, hs⟩, -, hactive⟩
  rw [connectAll, Std.ExtTreeMap.getElem?_map, Option.map_eq_some_iff] at hf
  obtain ⟨g, hg, rfl⟩ := hf
  rw [Fork.mem_connect, h.slots fork g hg] at hs
  obtain ⟨-, hclosed⟩ := hs.resolve_left List.not_mem_nil
  rw [hclosed] at hactive
  cases hactive

theorem Bare.revision_connectAll (h : t.Bare) : t.connectAll.revision =
    t.forks.size + t.exits.size + t.forks.size * t.exits.size := by
  have hnew : t.forks.values.flatMap (fun f ↦ f.unconnected t.exits.keys) =
      t.forks.values.flatMap fun _ ↦ t.exits.keys := by
    refine List.flatMap_congr fun f hf ↦ ?_
    obtain ⟨id, hf⟩ := mem_values.1 hf
    exact h.unconnected_keys hf
  have hlength : (t.forks.values.flatMap fun _ ↦ t.exits.keys).length =
      t.forks.size * t.exits.size := by
    simp [List.length_flatMap, length_values]
  simp only [connectAll, hnew, hlength, h.revision]

end Topology

end RightOfWay
