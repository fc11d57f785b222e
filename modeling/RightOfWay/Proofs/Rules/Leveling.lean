import Mathlib.Data.Finset.Card
import Mathlib.Data.List.Dedup
import RightOfWay.Rules.Strata

/-!
# When a program can be stratified

A *leveling* puts every head at least as high as the relations that its body uses and strictly
above those that it negates.  This file shows that `stratify` is exact about them:

* what it returns is a leveling (`isLeveling_of_stratify`) and the least one
  (`level_le_of_isLeveling`), and no level of it is above the number of relations
  (`level_le_of_stratify`);
* it succeeds whenever the program has a leveling at all (`exists_stratify_iff`).

The last part is where the limit comes in.  A given leveling may use levels far above it, so it is
first brought down: `lowered` counts how many different levels of relations of the program lie
below a given one.  That is again a leveling, it does not exceed the number of relations, and the
rounds of `stratify` never climb past it.
-/

set_option autoImplicit false

namespace RightOfWay

/-- A literal may stand in the body of a rule whose head is at level `n`. -/
def Literal.Admits (level : Relation → Nat) (n : Nat) : Literal → Prop
  | .pos p => level p.relation ≤ n
  | .neg p => level p.relation < n
  | .cmp .. => True

instance (level : Relation → Nat) (n : Nat) : (l : Literal) → Decidable (l.Admits level n)
  | .pos p => inferInstanceAs (Decidable (level p.relation ≤ n))
  | .neg p => inferInstanceAs (Decidable (level p.relation < n))
  | .cmp .. => inferInstanceAs (Decidable True)

/-- Every head stands at least as high as what its body uses, and above what its body negates. -/
def IsLeveling (rules : List Rule) (level : Relation → Nat) : Prop :=
  ∀ r ∈ rules, ∀ head, r.head = some head → ∀ l ∈ r.body, l.Admits level (level head.relation)

instance (rules : List Rule) (level : Relation → Nat) : Decidable (IsLeveling rules level) :=
  inferInstanceAs (Decidable (∀ r ∈ rules, ∀ head ∈ r.head, ∀ l ∈ r.body,
    l.Admits level (level head.relation)))

namespace Levels

/-! ## What is required of a head -/

theorem foldl_max_le_iff {f : Literal → Nat} {body : List Literal} {m n : Nat} :
    body.foldl (fun level l ↦ max level (f l)) m ≤ n ↔ m ≤ n ∧ ∀ l ∈ body, f l ≤ n := by
  induction body generalizing m with
  | nil => simp
  | cons l body ih =>
    rw [List.foldl_cons, ih, Nat.max_le, List.forall_mem_cons, and_assoc]

theorem ofLiteral_le_iff {ls : Levels} {l : Literal} {n : Nat} :
    ls.ofLiteral l ≤ n ↔ l.Admits ls.level n := by
  cases l with
  | pos p => exact Iff.rfl
  | neg p => exact Iff.rfl
  | cmp lhs c rhs => exact ⟨fun _ ↦ trivial, fun _ ↦ Nat.zero_le n⟩

theorem required_le_iff {ls : Levels} {r : Rule} {head : Pattern} {n : Nat} :
    ls.required r head ≤ n ↔
      ls.level head.relation ≤ n ∧ ∀ l ∈ r.body, l.Admits ls.level n := by
  rw [required, foldl_max_le_iff]
  simp only [ofLiteral_le_iff]

theorem admits_of_settled {ls : Levels} {r : Rule} {head : Pattern} (h : ls.settled r = true)
    (hhead : r.head = some head) :
    ∀ l ∈ r.body, l.Admits ls.level (ls.level head.relation) := by
  have heq : ls.required r head = ls.level head.relation := by simpa [settled, hhead] using h
  exact (required_le_iff.1 (Nat.le_of_eq heq)).2

/-- Settling ends with every rule settled and no level above the limit. -/
theorem settled_of_settle {limit : Nat} {rules : List Rule} {ls ms : Levels}
    {hbound : ∀ r, ls.level r ≤ limit} (h : settle limit rules ls hbound = .ok ms) :
    (∀ r ∈ rules, ms.settled r = true) ∧ ∀ r, ms.level r ≤ limit := by
  fun_induction settle limit rules ls hbound with
  | case1 ls hbound hall =>
    cases h
    exact ⟨List.all_eq_true.1 hall, hbound⟩
  | case2 => cases h
  | case3 ls hbound _ ms' hround ih => exact ih h

end Levels

theorem isLeveling_of_stratify {rules : List Rule} {levels : Levels}
    (h : stratify rules = .ok levels) : IsLeveling rules levels.level := by
  intro r hr head hhead
  exact Levels.admits_of_settled ((Levels.settled_of_settle h).1 r hr) hhead

theorem level_le_of_stratify {rules : List Rule} {levels : Levels}
    (h : stratify rules = .ok levels) (r : Relation) :
    levels.level r ≤ (relationsOf rules).size :=
  (Levels.settled_of_settle h).2 r

/-! ## Bringing a leveling down -/

theorem mem_relationsOf {rules : List Rule} {s : Relation} :
    s ∈ relationsOf rules ↔
      ∃ r ∈ rules, r.headRelation? = some s ∨ ∃ l ∈ r.body, l.relation? = some s := by
  simp [relationsOf, Std.ExtTreeSet.mem_ofList]

/-- The levels of the relations of a program. -/
def levelValues (rules : List Rule) (level : Relation → Nat) : Finset Nat :=
  ((relationsOf rules).toList.map level).toFinset

theorem card_levelValues_le (rules : List Rule) (level : Relation → Nat) :
    (levelValues rules level).card ≤ (relationsOf rules).size := by
  refine (List.toFinset_card_le _).trans ?_
  rw [List.length_map, Std.ExtTreeSet.length_toList]

/-- The number of different levels of relations of the program below the one of `s`. -/
def lowered (rules : List Rule) (level : Relation → Nat) (s : Relation) : Nat :=
  ((levelValues rules level).filter (· < level s)).card

theorem lowered_le (rules : List Rule) (level : Relation → Nat) (s : Relation) :
    lowered rules level s ≤ (relationsOf rules).size :=
  (Finset.card_filter_le _ _).trans (card_levelValues_le rules level)

theorem lowered_mono {rules : List Rule} {level : Relation → Nat} {s t : Relation}
    (h : level s ≤ level t) : lowered rules level s ≤ lowered rules level t := by
  refine Finset.card_le_card fun n hn ↦ ?_
  rw [Finset.mem_filter] at hn ⊢
  exact ⟨hn.1, Nat.lt_of_lt_of_le hn.2 h⟩

theorem lowered_lt {rules : List Rule} {level : Relation → Nat} {s t : Relation}
    (hs : s ∈ relationsOf rules) (h : level s < level t) :
    lowered rules level s < lowered rules level t := by
  have hmem : level s ∈ levelValues rules level := by
    rw [levelValues, List.mem_toFinset, List.mem_map]
    exact ⟨s, Std.ExtTreeSet.mem_toList.2 hs, rfl⟩
  refine Finset.card_lt_card ⟨fun n hn ↦ ?_, fun hsub ↦ ?_⟩
  · rw [Finset.mem_filter] at hn ⊢
    exact ⟨hn.1, hn.2.trans h⟩
  · -- the level of `s` itself lies below that of `t` and not below that of `s`
    have hself := hsub (Finset.mem_filter.2 ⟨hmem, h⟩)
    exact Nat.lt_irrefl _ (Finset.mem_filter.1 hself).2

theorem IsLeveling.lowered {rules : List Rule} {level : Relation → Nat}
    (h : IsLeveling rules level) : IsLeveling rules (lowered rules level) := by
  intro r hr head hhead l hl
  have hadmits := h r hr head hhead l hl
  cases l with
  | pos p => exact lowered_mono hadmits
  | neg p => exact lowered_lt (mem_relationsOf.2 ⟨r, hr, .inr ⟨_, hl, rfl⟩⟩) hadmits
  | cmp lhs c rhs => trivial

/-! ## Rounds stay below every leveling -/

theorem Literal.Admits.mono {f g : Relation → Nat} (h : ∀ s, f s ≤ g s) {n : Nat} {l : Literal}
    (hl : l.Admits g n) : l.Admits f n := by
  cases l with
  | pos p => exact (h _).trans hl
  | neg p => exact (h _).trans_lt hl
  | cmp lhs c rhs => trivial

namespace Levels

variable {rules : List Rule} {level : Relation → Nat} {limit : Nat}

theorem required_le_of_admits {ls : Levels} {r : Rule} {head : Pattern}
    (hr : ∀ l ∈ r.body, l.Admits level (level head.relation)) (hls : ∀ s, ls.level s ≤ level s) :
    ls.required r head ≤ level head.relation :=
  required_le_iff.2 ⟨hls _, fun l hl ↦ (hr l hl).mono hls⟩

/-- Raising changes the level of the head only, and that to the one that the rule requires. -/
theorem level_of_raise {ls ms : Levels} {r : Rule} (h : ls.raise limit r = .ok ms) (s : Relation) :
    ms.level s = ls.level s ∨
      ∃ head, r.head = some head ∧ head.relation = s ∧ ms.level s = ls.required r head := by
  rw [raise] at h
  split at h
  · cases h
    exact .inl rfl
  · rename_i head hhead
    split at h <;> cases h
    rw [level_insert]
    split
    · rename_i hs
      exact .inr ⟨head, hhead, hs, rfl⟩
    · exact .inl rfl

theorem le_of_raise {ls ms : Levels} {r : Rule}
    (hr : ∀ head, r.head = some head → ∀ l ∈ r.body, l.Admits level (level head.relation))
    (hls : ∀ s, ls.level s ≤ level s) (h : ls.raise limit r = .ok ms) :
    ∀ s, ms.level s ≤ level s := by
  intro s
  obtain hsame | ⟨head, hhead, rfl, hlevel⟩ := level_of_raise h s
  · exact hsame ▸ hls s
  · exact hlevel ▸ required_le_of_admits (hr head hhead) hls

theorem le_of_round (hrules : IsLeveling rules level) {ls ms : Levels}
    (hls : ∀ s, ls.level s ≤ level s) (h : round limit rules ls = .ok ms) :
    ∀ s, ms.level s ≤ level s := by
  induction rules generalizing ls with
  | nil =>
    cases h
    exact hls
  | cons r rules ih =>
    rw [round] at h
    split at h
    · cases h
    · rename_i ks hraise
      have hks := le_of_raise (hrules r List.mem_cons_self) hls hraise
      exact ih (fun s hs ↦ hrules s (List.mem_cons_of_mem _ hs)) hks h

theorem le_of_settle (hrules : IsLeveling rules level) {ls ms : Levels}
    {hbound : ∀ s, ls.level s ≤ limit} (hls : ∀ s, ls.level s ≤ level s)
    (h : settle limit rules ls hbound = .ok ms) : ∀ s, ms.level s ≤ level s := by
  fun_induction settle limit rules ls hbound with
  | case1 ls hbound _ =>
    cases h
    exact hls
  | case2 => cases h
  | case3 ls hbound _ ks hround ih => exact ih (le_of_round hrules hls hround) h

theorem exists_raise {ls : Levels} {r : Rule}
    (hr : ∀ head, r.head = some head → ∀ l ∈ r.body, l.Admits level (level head.relation))
    (hlimit : ∀ s, level s ≤ limit) (hls : ∀ s, ls.level s ≤ level s) :
    ∃ ms, ls.raise limit r = .ok ms := by
  cases hhead : r.head with
  | none => exact ⟨ls, by rw [raise, hhead]⟩
  | some head =>
    have hreq := required_le_of_admits (hr head hhead) hls
    refine ⟨ls.insert head.relation (ls.required r head), ?_⟩
    rw [raise, hhead]
    exact if_neg (Nat.not_lt.2 (hreq.trans (hlimit _)))

theorem exists_round (hrules : IsLeveling rules level) (hlimit : ∀ s, level s ≤ limit)
    {ls : Levels} (hls : ∀ s, ls.level s ≤ level s) : ∃ ms, round limit rules ls = .ok ms := by
  induction rules generalizing ls with
  | nil => exact ⟨ls, rfl⟩
  | cons r rules ih =>
    have hr := hrules r List.mem_cons_self
    obtain ⟨ks, hraise⟩ := exists_raise hr hlimit hls
    obtain ⟨ms, hround⟩ :=
      ih (fun s hs ↦ hrules s (List.mem_cons_of_mem _ hs)) (le_of_raise hr hls hraise)
    exact ⟨ms, by rw [round, hraise]; exact hround⟩

theorem exists_settle (hrules : IsLeveling rules level) (hlimit : ∀ s, level s ≤ limit)
    {ls : Levels} (hbound : ∀ s, ls.level s ≤ limit) (hls : ∀ s, ls.level s ≤ level s) :
    ∃ ms, settle limit rules ls hbound = .ok ms := by
  fun_induction settle limit rules ls hbound with
  | case1 ls hbound _ => exact ⟨ls, rfl⟩
  | case2 ls hbound _ predicate hround =>
    obtain ⟨ms, hok⟩ := exists_round hrules hlimit hls
    rw [hround] at hok
    cases hok
  | case3 ls hbound _ ms hround ih => exact ih (le_of_round hrules hls hround)

end Levels

/-- No leveling has a relation lower than `stratify` puts it. -/
theorem level_le_of_isLeveling {rules : List Rule} {levels : Levels} {level : Relation → Nat}
    (h : stratify rules = .ok levels) (hlevel : IsLeveling rules level) (s : Relation) :
    levels.level s ≤ level s := by
  refine Levels.le_of_settle hlevel (fun t ↦ ?_) h s
  rw [Levels.level_empty]
  exact Nat.zero_le _

/-- **Stratification is exact**: it succeeds on the programs that have a leveling. -/
theorem exists_stratify_iff {rules : List Rule} :
    (∃ levels, stratify rules = .ok levels) ↔ ∃ level, IsLeveling rules level := by
  constructor
  · rintro ⟨levels, h⟩
    exact ⟨levels.level, isLeveling_of_stratify h⟩
  · rintro ⟨level, h⟩
    refine Levels.exists_settle h.lowered (lowered_le rules level) _ fun s ↦ ?_
    rw [Levels.level_empty]
    exact Nat.zero_le _

end RightOfWay
