import Mathlib.Data.Set.Card
import Mathlib.Logic.Relation
import RightOfWay.Proofs.Rules.Meaning

/-!
# Cycles through negation

The relations of a program depend on one another: what a rule derives depends on what its body
looks up.  `stratify` never looks at this graph.  It raises levels, and gives up when one of them is
higher than there are relations.  This file shows that the two agree.

* `Uses` and `Negates` are the edges of the graph, from the head of a rule to the relations in its
  body, and `HasNegativeCycle` says that some way back to where it started passes a negation.
* Along every edge a leveling goes down or stays level, and it goes down along negations.  So there
  is none where a cycle passes a negation (`IsLeveling.not_hasNegativeCycle`).
* Where no cycle does, `negativeDepth` is a leveling: it counts the relations that can be reached
  from a given one through a negation, and a relation that is negated is no longer among those that
  it reaches itself (`isLeveling_negativeDepth`).
* Raising levels comes to an end after a number of rounds that is known beforehand
  (`Levels.exists_rounds`).
-/

set_option autoImplicit false

namespace RightOfWay

/-! ## The graph -/

/-- A rule for `s` looks up `t`, negated or not. -/
def Uses (rules : List Rule) (s t : Relation) : Prop :=
  ∃ r ∈ rules, r.headRelation? = some s ∧ ∃ l ∈ r.body, l.relation? = some t

/-- A rule for `s` negates `t`. -/
def Negates (rules : List Rule) (s t : Relation) : Prop :=
  ∃ r ∈ rules, r.headRelation? = some s ∧ ∃ p, .neg p ∈ r.body ∧ p.relation = t

/-- There is a way from `s` to `t`, of any length, along rules. -/
def Reaches (rules : List Rule) : Relation → Relation → Prop := Relation.ReflTransGen (Uses rules)

/-- There is a way from `s` to `t` that passes a negation. -/
def ReachesThroughNegation (rules : List Rule) (s t : Relation) : Prop :=
  ∃ u v, Reaches rules s u ∧ Negates rules u v ∧ Reaches rules v t

/-- There is a cycle that passes a negation. -/
def HasNegativeCycle (rules : List Rule) : Prop :=
  ∃ s t, Negates rules s t ∧ Reaches rules t s

section Graph

variable {rules : List Rule} {level : Relation → Nat} {s t u : Relation}

theorem uses_of_mem {r : Rule} {head : Pattern} (hr : r ∈ rules) (hhead : r.head = some head)
    {l : Literal} (hl : l ∈ r.body) (ht : l.relation? = some t) : Uses rules head.relation t := by
  refine ⟨r, hr, ?_, l, hl, ht⟩
  rw [Rule.headRelation?, hhead]
  rfl

theorem negates_of_mem {r : Rule} {head p : Pattern} (hr : r ∈ rules) (hhead : r.head = some head)
    (hp : .neg p ∈ r.body) : Negates rules head.relation p.relation := by
  refine ⟨r, hr, ?_, p, hp, rfl⟩
  rw [Rule.headRelation?, hhead]
  rfl

theorem Negates.uses (h : Negates rules s t) : Uses rules s t := by
  obtain ⟨r, hr, hhead, p, hp, rfl⟩ := h
  exact ⟨r, hr, hhead, _, hp, rfl⟩

theorem Uses.mem_relationsOf (h : Uses rules s t) : t ∈ relationsOf rules := by
  obtain ⟨r, hr, -, hl⟩ := h
  exact RightOfWay.mem_relationsOf.2 ⟨r, hr, .inr hl⟩

theorem Uses.reachesThroughNegation (h : Uses rules s t) (ht : ReachesThroughNegation rules t u) :
    ReachesThroughNegation rules s u := by
  obtain ⟨v, w, hv, hnegates, hw⟩ := ht
  exact ⟨v, w, hv.head h, hnegates, hw⟩

theorem ReachesThroughNegation.mem_relationsOf (h : ReachesThroughNegation rules s t) :
    t ∈ relationsOf rules := by
  obtain ⟨u, v, -, hnegates, hreaches⟩ := h
  rcases hreaches.cases_tail with rfl | ⟨w, -, hlast⟩
  · exact hnegates.uses.mem_relationsOf
  · exact hlast.mem_relationsOf

theorem hasNegativeCycle_iff :
    HasNegativeCycle rules ↔ ∃ s, ReachesThroughNegation rules s s := by
  constructor
  · rintro ⟨s, t, hnegates, hreaches⟩
    exact ⟨s, s, t, .refl, hnegates, hreaches⟩
  · rintro ⟨s, u, v, hu, hnegates, hv⟩
    exact ⟨u, v, hnegates, hv.trans hu⟩

/-! ## Levelings go down along it -/

theorem IsLeveling.le_of_uses (h : IsLeveling rules level) (huses : Uses rules s t) :
    level t ≤ level s := by
  obtain ⟨r, hr, hs, l, hl, ht⟩ := huses
  obtain ⟨head, hhead, rfl⟩ := Option.map_eq_some_iff.1 hs
  have hadmits := h r hr head hhead l hl
  cases l with
  | pos p =>
    cases ht
    exact hadmits
  | neg p =>
    cases ht
    exact Nat.le_of_lt hadmits
  | cmp lhs c rhs => cases ht

theorem IsLeveling.lt_of_negates (h : IsLeveling rules level) (hnegates : Negates rules s t) :
    level t < level s := by
  obtain ⟨r, hr, hs, p, hp, rfl⟩ := hnegates
  obtain ⟨head, hhead, rfl⟩ := Option.map_eq_some_iff.1 hs
  exact h r hr head hhead _ hp

theorem IsLeveling.le_of_reaches (h : IsLeveling rules level) (hreaches : Reaches rules s t) :
    level t ≤ level s := by
  induction hreaches with
  | refl => exact Nat.le_refl _
  | tail _ huses ih => exact (h.le_of_uses huses).trans ih

theorem IsLeveling.not_hasNegativeCycle (h : IsLeveling rules level) :
    ¬ HasNegativeCycle rules := by
  rintro ⟨s, t, hnegates, hreaches⟩
  exact Nat.lt_irrefl _ ((h.lt_of_negates hnegates).trans_le (h.le_of_reaches hreaches))

/-! ## A leveling where no cycle passes a negation -/

/-- The number of relations that can be reached through a negation. -/
noncomputable def negativeDepth (rules : List Rule) (s : Relation) : Nat :=
  {t | ReachesThroughNegation rules s t}.ncard

theorem finite_reachesThroughNegation (rules : List Rule) (s : Relation) :
    {t | ReachesThroughNegation rules s t}.Finite := by
  refine (relationsOf rules).toList.toFinset.finite_toSet.subset fun t ht ↦ ?_
  rw [Finset.mem_coe, List.mem_toFinset, Std.ExtTreeSet.mem_toList]
  exact ht.mem_relationsOf

theorem negativeDepth_le_of_uses (h : Uses rules s t) :
    negativeDepth rules t ≤ negativeDepth rules s :=
  Set.ncard_le_ncard (fun _ ↦ h.reachesThroughNegation) (finite_reachesThroughNegation rules s)

theorem negativeDepth_lt_of_negates (ht : ¬ ReachesThroughNegation rules t t)
    (h : Negates rules s t) : negativeDepth rules t < negativeDepth rules s := by
  refine Set.ncard_lt_ncard ⟨fun _ ↦ h.uses.reachesThroughNegation, fun hsub ↦ ht ?_⟩
    (finite_reachesThroughNegation rules s)
  -- `s` reaches `t` through a negation, and `t` would close a cycle if it did so too
  exact hsub ⟨s, t, .refl, h, .refl⟩

theorem isLeveling_negativeDepth (hcycle : ¬ HasNegativeCycle rules) :
    IsLeveling rules (negativeDepth rules) := by
  intro r hr head hhead l hl
  cases l with
  | pos p => exact negativeDepth_le_of_uses (uses_of_mem hr hhead hl rfl)
  | neg p =>
    have hself : ¬ ReachesThroughNegation rules p.relation p.relation := fun hself ↦
      hcycle (hasNegativeCycle_iff.2 ⟨_, hself⟩)
    exact negativeDepth_lt_of_negates hself (negates_of_mem hr hhead hl)
  | cmp lhs c rhs => trivial

/-- **A program has a leveling unless a cycle passes a negation.** -/
theorem exists_isLeveling_iff :
    (∃ level, IsLeveling rules level) ↔ ¬ HasNegativeCycle rules :=
  ⟨fun ⟨_, h⟩ ↦ h.not_hasNegativeCycle, fun h ↦ ⟨_, isLeveling_negativeDepth h⟩⟩

end Graph

/-! ## The number of rounds -/

namespace Levels

/-- The given number of rounds, one after the other. -/
def rounds (limit : Nat) (rules : List Rule) : Nat → Levels → Except String Levels
  | 0, ls => .ok ls
  | n + 1, ls =>
    match round limit rules ls with
    | .error predicate => .error predicate
    | .ok ms => rounds limit rules n ms

variable {limit : Nat} {ls : Levels}

theorem room_pos_of_not_settled {rules : List Rule} (hbound : ∀ s, ls.level s ≤ limit)
    (h : ¬ rules.all ls.settled = true) : 0 < ls.room limit rules := by
  induction rules with
  | nil => exact absurd rfl h
  | cons r rules ih =>
    rw [room]
    by_cases hr : ls.settled r = true
    · rw [List.all_cons, hr, Bool.true_and] at h
      exact Nat.add_pos_right _ (ih h)
    · refine Nat.add_pos_left ?_ _
      rw [settled] at hr
      split at hr
      · exact absurd rfl hr
      · rename_i head hhead
        rw [roomOf, hhead]
        exact Nat.sub_pos_of_lt (Nat.lt_succ_of_le (hbound _))

/-- Settling is doing rounds, and no more of them than there is room to climb. -/
theorem exists_rounds (rules : List Rule) (hbound : ∀ s, ls.level s ≤ limit) :
    ∃ n ≤ ls.room limit rules, rounds limit rules n ls = settle limit rules ls hbound := by
  fun_induction settle limit rules ls hbound with
  | case1 ls hbound _ => exact ⟨0, Nat.zero_le _, rfl⟩
  | case2 ls hbound hopen predicate hround =>
    refine ⟨1, room_pos_of_not_settled hbound hopen, ?_⟩
    rw [rounds, hround]
  | case3 ls hbound hopen ms hround ih =>
    obtain ⟨n, hn, hrounds⟩ := ih
    obtain ⟨r, hr, hsettled⟩ : ∃ r ∈ rules, ls.settled r = false := by simpa using hopen
    refine ⟨n + 1, hn.trans_lt (room_lt_of_round hround hr hsettled hbound), ?_⟩
    rw [rounds, hround]
    exact hrounds

theorem room_le (limit : Nat) (rules : List Rule) (ls : Levels) :
    ls.room limit rules ≤ rules.length * (limit + 1) := by
  induction rules with
  | nil => exact Nat.zero_le _
  | cons r rules ih =>
    have hroom : ls.roomOf limit r ≤ limit + 1 := by
      rw [roomOf]
      split
      · exact Nat.zero_le _
      · exact Nat.sub_le _ _
    rw [room, List.length_cons, Nat.add_mul, Nat.one_mul, Nat.add_comm]
    exact Nat.add_le_add ih hroom

end Levels

/-- **Stratification is exact.**  For every list of rules, whether it was read from a text or not:

* raising levels comes to an end, after no more rounds than there are rules times one more than
  there are relations;
* it fails exactly if a cycle of dependencies passes a negation;
* if it succeeds, every head is at least as high as what its body uses and higher than what its body
  negates, and no other levels with this property put a relation lower. -/
theorem stratify_exact (rules : List Rule) :
    (∃ n ≤ rules.length * ((relationsOf rules).size + 1),
      Levels.rounds (relationsOf rules).size rules n ∅ = stratify rules) ∧
    ((∃ predicate, stratify rules = .error predicate) ↔ HasNegativeCycle rules) ∧
    ∀ levels, stratify rules = .ok levels →
      IsLeveling rules levels.level ∧
        ∀ level, IsLeveling rules level → ∀ s, levels.level s ≤ level s := by
  refine ⟨?_, ?_, fun levels h ↦ ⟨isLeveling_of_stratify h, fun level ↦ level_le_of_isLeveling h⟩⟩
  · have hempty : ∀ s, Levels.level ∅ s ≤ (relationsOf rules).size := fun s ↦ by
      simp [Levels.level_empty]
    obtain ⟨n, hn, hrounds⟩ := Levels.exists_rounds rules hempty
    exact ⟨n, hn.trans (Levels.room_le _ _ _), hrounds⟩
  · rw [← not_iff_not, ← exists_isLeveling_iff, ← exists_stratify_iff]
    cases stratify rules with
    | error predicate => simp
    | ok levels => simp

/-- The rules for sources are put on two levels, and none of them could be lower. -/
theorem stratify_exact_sources :
    ∃ levels, stratify sources = .ok levels ∧
      levels.level ⟨"edge", 2⟩ = 0 ∧ levels.level ⟨"source", 1⟩ = 1 := by
  obtain ⟨-, -, hexact⟩ := stratify_exact sources
  obtain ⟨levels, hlevels⟩ := exists_stratify_iff.2 ⟨_, isLeveling_sources⟩
  obtain ⟨hlevel, hleast⟩ := hexact levels hlevels
  have hedge : levels.level ⟨"edge", 2⟩ ≤ 0 := hleast _ isLeveling_sources _
  have hsource : levels.level ⟨"source", 1⟩ ≤ 1 := hleast _ isLeveling_sources _
  have hnegated : levels.level ⟨"edge", 2⟩ < levels.level ⟨"source", 1⟩ :=
    hlevel sources[1] (by decide) ⟨"source", [.var "X"]⟩ rfl (.neg ⟨"edge", [.var "_2", .var "X"]⟩)
      (by decide)
  exact ⟨levels, hlevels, by omega, by omega⟩

end RightOfWay
