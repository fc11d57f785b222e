import Mathlib.Data.List.Nodup
import RightOfWay.Proofs.Crossing.Construction

/-!
# Slots

The operations on a topology change forks by giving them new slots or by putting a slot in the place
of another one.

* `Fork.mem_connect` and `Fork.mem_putSlot` say which slots there are then, if a fork has no two
  slots for one exit.  That stays so (`Fork.nodup_connect`, `Fork.map_exit_putSlot`).
* `Topology.HasSlot` is the view of all slots of a topology.  `Topology.hasSlot_insert` and
  `Topology.hasSlot_putSlot` say how it changes.
-/

set_option autoImplicit false

namespace RightOfWay

/-! ## Slots of a fork -/

namespace Fork

variable {f : Fork} {s : Slot} {exit : ExitId} {exits : List ExitId}

theorem slot?_eq_some (hnodup : (f.slots.map Slot.exit).Nodup) :
    f.slot? exit = some s ↔ s ∈ f.slots ∧ s.exit = exit := by
  rw [slot?]
  generalize f.slots = slots at hnodup ⊢
  induction slots with
  | nil => simp
  | cons r slots ih =>
    obtain ⟨hr, hnodup⟩ := List.nodup_cons.1 hnodup
    by_cases hexit : r.exit = exit
    · rw [List.find?_cons_of_pos (by simpa using hexit), Option.some_inj, List.mem_cons]
      constructor
      · rintro rfl
        exact ⟨.inl rfl, hexit⟩
      · rintro ⟨rfl | hs, hsexit⟩
        · rfl
        · -- no later slot is for the same exit
          rw [hexit, ← hsexit] at hr
          exact absurd (List.mem_map_of_mem hs) hr
    · rw [List.find?_cons_of_neg (by simpa using hexit), ih hnodup, List.mem_cons]
      refine and_congr_left fun hsexit ↦ (or_iff_right ?_).symm
      rintro rfl
      exact hexit hsexit

theorem mem_unconnected :
    exit ∈ f.unconnected exits ↔ exit ∈ exits ∧ exit ∉ f.slots.map Slot.exit := by
  simp [unconnected, slot?]

theorem mem_connect :
    s ∈ (f.connect exits).slots ↔
      s ∈ f.slots ∨ (s.exit ∈ f.unconnected exits ∧ s = .closed s.exit) := by
  rw [connect, List.mem_append, List.mem_map]
  refine or_congr_right ⟨?_, ?_⟩
  · rintro ⟨exit, hexit, rfl⟩
    exact ⟨hexit, rfl⟩
  · rintro ⟨hexit, hs⟩
    exact ⟨s.exit, hexit, hs.symm⟩

theorem connect_nil (f : Fork) : f.connect [] = f := by
  simp [connect, unconnected]

theorem nodup_connect (hnodup : (f.slots.map Slot.exit).Nodup) (hexits : exits.Nodup) :
    ((f.connect exits).slots.map Slot.exit).Nodup := by
  have hnew : ((f.unconnected exits).map Slot.closed).map Slot.exit = f.unconnected exits := by
    simp [Slot.closed, Function.comp_def]
  rw [connect, List.map_append, hnew]
  refine List.Nodup.append hnodup (hexits.filter _) fun exit hold hadded ↦ ?_
  exact (mem_unconnected.1 hadded).2 hold

theorem map_exit_putSlot (f : Fork) (slot : Slot) :
    (f.putSlot slot).slots.map Slot.exit = f.slots.map Slot.exit := by
  rw [putSlot, List.map_map]
  refine List.map_congr_left fun s _ ↦ ?_
  by_cases hs : s.exit = slot.exit
  · simp [hs]
  · simp [hs]

theorem nodup_putSlot {slot : Slot} (h : (f.slots.map Slot.exit).Nodup) :
    ((f.putSlot slot).slots.map Slot.exit).Nodup := by
  rwa [map_exit_putSlot]

theorem mem_putSlot {slot : Slot} (hexit : slot.exit ∈ f.slots.map Slot.exit) :
    s ∈ (f.putSlot slot).slots ↔ (s ∈ f.slots ∧ s.exit ≠ slot.exit) ∨ s = slot := by
  rw [putSlot, List.mem_map]
  constructor
  · rintro ⟨r, hr, rfl⟩
    by_cases hrexit : r.exit = slot.exit
    · exact .inr (if_pos hrexit)
    · rw [if_neg hrexit]
      exact .inl ⟨hr, hrexit⟩
  · rintro (⟨hs, hsexit⟩ | rfl)
    · exact ⟨s, hs, if_neg hsexit⟩
    · obtain ⟨r, hr, hrexit⟩ := List.mem_map.1 hexit
      exact ⟨r, hr, if_pos hrexit⟩

end Fork

namespace Topology

/-! ## Slots of a topology -/

/-- The slot is one of the fork's. -/
def HasSlot (t : Topology) (fork : ForkId) (s : Slot) : Prop :=
  ∃ f, t.forks[fork]? = some f ∧ s ∈ f.slots

variable {t t' : Topology} {fork fork' : ForkId} {f : Fork} {s s' : Slot}

theorem hasSlot_insert (hforks : t'.forks = t.forks.insert fork f) :
    t'.HasSlot fork' s ↔ if fork = fork' then s ∈ f.slots else t.HasSlot fork' s := by
  simp only [HasSlot, hforks, Std.ExtTreeMap.getElem?_insert, Std.LawfulEqCmp.compare_eq_iff_eq]
  by_cases hfork : fork = fork'
  · simp [hfork]
  · simp [hfork]

theorem mem_insert_forks (hf : t.forks[fork]? = some f) {g : Fork} {id : ForkId} :
    id ∈ t.forks.insert fork g ↔ id ∈ t.forks := by
  rw [Std.ExtTreeMap.mem_insert]
  refine or_iff_right_of_imp fun heq ↦ ?_
  rw [← Std.LawfulEqCmp.eq_of_compare heq]
  exact of_getElem?_eq_some hf

/-- A slot that takes the place of another one leaves all others as they are. -/
theorem hasSlot_putSlot (slot : Slot) (hf : t.forks[fork]? = some f) (hs : t.HasSlot fork s)
    (hexit : s.exit = slot.exit) (hforks : t'.forks = t.forks.insert fork (f.putSlot slot)) :
    t'.HasSlot fork' s' ↔
      (t.HasSlot fork' s' ∧ ¬ (fork = fork' ∧ s'.exit = slot.exit)) ∨ fork = fork' ∧ s' = slot := by
  obtain ⟨g, hg, hmem⟩ := hs
  cases hf.symm.trans hg
  rw [hasSlot_insert hforks]
  by_cases hfork : fork = fork'
  · subst hfork
    rw [if_pos rfl, Fork.mem_putSlot (hexit ▸ List.mem_map_of_mem hmem), HasSlot, hf]
    simp
  · simp [hfork]

/-- What is true of all slots stays so if it is true of the one that takes the place of another. -/
theorem forall_hasSlot_putSlot {P : ForkId → Slot → Prop} {slot : Slot}
    (hforks : t'.forks = t.forks.insert fork (f.putSlot slot)) (hf : t.forks[fork]? = some f)
    (hs : t.HasSlot fork s) (hexit : s.exit = slot.exit)
    (h : ∀ fork s, t.HasSlot fork s → P fork s) (hslot : P fork slot) :
    ∀ fork s, t'.HasSlot fork s → P fork s := by
  intro fork' s' hs'
  rcases (hasSlot_putSlot slot hf hs hexit hforks).1 hs' with ⟨hold, -⟩ | ⟨rfl, rfl⟩
  · exact h fork' s' hold
  · exact hslot

end Topology
end RightOfWay
