import Mathlib.Tactic.Ring
import RightOfWay.Proofs.Yielding.Derivations

/-!
# How much the traffic rules derive

An evaluation gives up if it derives more atoms than its budget allows.  The traffic rules do not
derive much: each relation takes its arguments from the front of one fact or of two.  `reach` lists
all that might come of some facts, the answer to the rules is part of it (`Situation.mem_reach`),
and so its size is bounded by a polynomial in the number of facts (`Situation.length_le`).
-/

set_option autoImplicit false

namespace RightOfWay

variable {facts : List Atom} {M : Set Atom} {a b : Atom}

/-! ## What might be derived -/

/-- The relations that take their arguments from one fact, and how many they take. -/
def derivedFromOne : List (String × Nat) :=
  [("entered", 1), ("waiting", 3), ("leftLane", 2), ("inLane", 2), ("signalled", 1), ("blocked", 1),
    ("mustStopToYield", 1), ("hasRightOfWay", 1)]

/-- The relations that take one argument each from two facts. -/
def derivedFromTwo : List String := ["intends", "arrivedEarlier", "yieldsToRight"]

/-- Facts and all that might be derived from them. -/
def reach (facts : List Atom) : List Atom :=
  facts ++ (facts.flatMap fun a ↦ derivedFromOne.map fun (p, n) ↦ ⟨p, a.args.take n⟩) ++
    facts.flatMap fun a ↦ facts.flatMap fun b ↦
      derivedFromTwo.map fun p ↦ ⟨p, a.args.take 1 ++ b.args.take 1⟩

theorem length_reach (facts : List Atom) :
    (reach facts).length = 3 * facts.length ^ 2 + 9 * facts.length := by
  have hsum : ∀ k, (facts.map fun _ ↦ k).sum = facts.length * k := by simp
  simp only [reach, List.length_append, List.length_flatMap, List.length_map, hsum, derivedFromOne,
    derivedFromTwo, List.length_cons, List.length_nil]
  ring

theorem mem_reach_one {p : String} {n : Nat} (hp : (p, n) ∈ derivedFromOne) (ha : a ∈ facts) :
    ⟨p, a.args.take n⟩ ∈ reach facts :=
  List.mem_append_left _ (List.mem_append_right _
    (List.mem_flatMap.2 ⟨a, ha, List.mem_map.2 ⟨_, hp, rfl⟩⟩))

theorem mem_reach_two {p : String} (hp : p ∈ derivedFromTwo) (ha : a ∈ facts) (hb : b ∈ facts) :
    ⟨p, a.args.take 1 ++ b.args.take 1⟩ ∈ reach facts :=
  List.mem_append_right _ (List.mem_flatMap.2
    ⟨a, ha, List.mem_flatMap.2 ⟨b, hb, List.mem_map.2 ⟨_, hp, rfl⟩⟩⟩)

theorem reach_subset {known : List Atom} (h : facts ⊆ known) : reach facts ⊆ reach known := by
  intro a ha
  rcases List.mem_append.1 ha with ha | htwo
  · rcases List.mem_append.1 ha with hfact | hone
    · exact List.mem_append_left _ (List.mem_append_left _ (h hfact))
    · obtain ⟨b, hb, hmap⟩ := List.mem_flatMap.1 hone
      obtain ⟨⟨p, n⟩, hp, rfl⟩ := List.mem_map.1 hmap
      exact mem_reach_one hp (h hb)
  · obtain ⟨b, hb, hinner⟩ := List.mem_flatMap.1 htwo
    obtain ⟨c, hc, hmap⟩ := List.mem_flatMap.1 hinner
    obtain ⟨p, hp, rfl⟩ := List.mem_map.1 hmap
    exact mem_reach_two hp (h hb) (h hc)

/-! ## What is derived -/

namespace Situation

variable {v w l : Term}

theorem exists_arrival_of_waiting (h : Situation facts M) {f t : Term}
    (hmem : ⟨"waiting", [v, f, t]⟩ ∈ M) : ∃ g u, ⟨"arrivesAtForkAtTime", [v, g, u]⟩ ∈ facts :=
  ⟨f, t, (h.mem_waiting.1 hmem).1⟩

theorem exists_arrival_of_stop (h : Situation facts M) (hmem : ⟨"mustStopToYield", [v]⟩ ∈ M) :
    ∃ g u, ⟨"arrivesAtForkAtTime", [v, g, u]⟩ ∈ facts := by
  rcases h.mem_mustStopToYield.1 hmem with ⟨w, hw⟩ | ⟨w, hw⟩ | hblocked
  · obtain ⟨_, _, hv, -⟩ := h.mem_arrivedEarlier.1 hw
    exact h.exists_arrival_of_waiting hv
  · obtain ⟨_, _, hv, -⟩ := h.mem_yieldsToRight.1 hw
    exact h.exists_arrival_of_waiting hv
  · obtain ⟨_, hintends, -⟩ := h.mem_blocked.1 hblocked
    obtain ⟨_, ⟨_, hv⟩, -⟩ := h.mem_intends.1 hintends
    exact h.exists_arrival_of_waiting hv

theorem mem_reach_of_arrival (h : ∃ g u, ⟨"arrivesAtForkAtTime", [v, g, u]⟩ ∈ facts) {p : String}
    (hp : (p, 1) ∈ derivedFromOne) : ⟨p, [v]⟩ ∈ reach facts := by
  obtain ⟨g, u, hmem⟩ := h
  exact mem_reach_one hp hmem

theorem mem_reach_of_intends (h : Situation facts M) (hmem : ⟨"intends", [v, l]⟩ ∈ M) :
    ⟨"intends", [v, l]⟩ ∈ reach facts := by
  obtain ⟨_, ⟨_, hv⟩, ⟨_, hlane⟩, -⟩ := h.mem_intends.1 hmem
  exact mem_reach_two (by decide) (h.mem_waiting.1 hv).1 hlane

/-- **The traffic rules derive nothing but what is in reach of the facts.** -/
theorem mem_reach (h : Situation facts M) (ha : a ∈ M) : a ∈ reach facts := by
  rcases h.mem_iff.1 ha with hfact | ⟨r, hr, head, σ, hhead, rfl, -⟩
  · exact List.mem_append_left _ (List.mem_append_left _ hfact)
  have hrule := List.mem_of_mem_filter hr
  simp only [yieldRules, List.mem_cons, List.not_mem_nil, or_false] at hrule
  rcases hrule with rfl | rfl | rfl | rfl | rfl | rfl | rfl | rfl | rfl | rfl | hrule
  · cases hhead
    obtain ⟨f, t, hf⟩ := h.mem_entered.1 ha
    exact mem_reach_one (n := 1) (by decide) hf
  · cases hhead
    exact mem_reach_one (n := 3) (by decide) (h.mem_waiting.1 ha).1
  · cases hhead
    obtain ⟨t, ht⟩ := h.mem_leftLane.1 ha
    exact mem_reach_one (n := 2) (by decide) ht
  · cases hhead
    obtain ⟨⟨t, ht⟩, -⟩ := h.mem_inLane.1 ha
    exact mem_reach_one (n := 2) (by decide) ht
  · cases hhead
    obtain ⟨s, f, t, hs⟩ := h.mem_signalled.1 ha
    exact mem_reach_one (n := 1) (by decide) hs
  · cases hhead
    exact h.mem_reach_of_intends ha
  · cases hhead
    exact h.mem_reach_of_intends ha
  · cases hhead
    obtain ⟨_, _, hv, _, _, hw, -⟩ := h.mem_arrivedEarlier.1 ha
    exact mem_reach_two (by decide) (h.mem_waiting.1 hw).1 (h.mem_waiting.1 hv).1
  · cases hhead
    obtain ⟨_, _, hv, _, hw, -⟩ := h.mem_yieldsToRight.1 ha
    exact mem_reach_two (by decide) (h.mem_waiting.1 hv).1 (h.mem_waiting.1 hw).1
  · cases hhead
    obtain ⟨_, hintends, -⟩ := h.mem_blocked.1 ha
    obtain ⟨_, ⟨_, hv⟩, -⟩ := h.mem_intends.1 hintends
    exact mem_reach_of_arrival (h.exists_arrival_of_waiting hv) (by decide)
  · -- the remaining heads are verdicts
    rcases hrule with rfl | rfl | rfl | rfl
    case inr.inr.inr =>
      cases hhead
      obtain ⟨⟨_, _, hv⟩, -⟩ := h.mem_hasRightOfWay.1 ha
      exact mem_reach_of_arrival (h.exists_arrival_of_waiting hv) (by decide)
    all_goals
      cases hhead
      exact mem_reach_of_arrival (h.exists_arrival_of_stop ha) (by decide)

/-- The size of the answer.  It does not matter in what order facts are known, or how often. -/
theorem length_le {known atoms : List Atom} (h : Situation facts {a | a ∈ atoms})
    (hnodup : atoms.Nodup) (hknown : facts ⊆ known) :
    atoms.length ≤ 3 * known.length ^ 2 + 9 * known.length := by
  have hreach : atoms ⊆ reach known := fun a ha ↦ reach_subset hknown (h.mem_reach ha)
  rw [← length_reach]
  exact (hnodup.subperm hreach).length_le

end Situation
end RightOfWay
