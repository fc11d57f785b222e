import RightOfWay.Proofs.Rules.Matching

/-!
# Saturating the strata

What `saturateStrata` arrives at is an answer set (`isAnswerSet_of_saturateStrata`).

The argument follows the evaluation.  While the rules whose heads are at level `k` are saturated,
only atoms at level `k` are added (`GrowsAt.level_eq`), and so what is below `k` is as it will
be in the end.  A body that is true on the way therefore stays true as far as its negative literals
are concerned, which makes every atom that is added belong to any set closed under the reduct; and a
body that is true in the end has been true when its own level was done, so that the head was added.
-/

set_option autoImplicit false

namespace RightOfWay

/-! ## Adding what a step derives -/

variable {budget : Nat} {rules : List Rule} {db db' : Database}

theorem contains_of_absorb {ds : List Derived} (h : absorb budget ds db = some db')
    (r : Relation) (t : Tuple) :
    db'.contains r t = true ↔ (r, t) ∈ ds ∨ db.contains r t = true := by
  induction ds generalizing db with
  | nil =>
    cases h
    simp
  | cons d ds ih =>
    simp only [absorb] at h
    split at h
    · cases h
    · rw [ih h, Database.contains_insert, List.mem_cons, Bool.or_eq_true, decide_eq_true_eq,
        ← Prod.mk.injEq, eq_comm (a := (d.1, d.2)), or_left_comm, or_assoc]

namespace Database

theorem wellFormed_empty : empty.WellFormed := by
  intro r t h
  rw [contains_empty] at h
  cases h

theorem mem_atomSet_of_absorb {ds : List Derived} (h : absorb budget ds db = some db') {a : Atom} :
    a ∈ db'.atomSet ↔ (a.relation, a.args) ∈ ds ∨ a ∈ db.atomSet :=
  contains_of_absorb h _ _

theorem wellFormed_of_absorb (hsafe : ∀ r ∈ rules, r.Safe) (hdb : db.WellFormed)
    (h : absorb budget (consequences db rules) db = some db') : db'.WellFormed := by
  intro r t hrt
  rcases (contains_of_absorb h r t).1 hrt with hnew | hold
  · obtain ⟨-, _, _, head, σ, _, _, heq⟩ := (mem_consequences_iff hsafe hdb).1 hnew
    cases heq
    exact List.length_map _
  · exact hdb r t hold

end Database

/-! ## Saturating one list of rules -/

/-- What every step of a saturation keeps, the saturated database has too; and nothing can be
derived from that any more. -/
theorem saturate_induction {P : Database → Prop}
    (hstep : ∀ db db', P db → absorb budget (consequences db rules) db = some db' → P db')
    (h : saturate budget rules db = some db') (hdb : P db) :
    P db' ∧ consequences db' rules = [] := by
  fun_induction saturate budget rules db with
  | case1 db hdone =>
    cases h
    exact ⟨hdb, hdone⟩
  | case2 => cases h
  | case3 db d ds hds db₁ habsorb ih =>
    exact ih h (hstep db db₁ hdb (by rw [hds]; exact habsorb))

theorem mem_stratum {levels : Levels} {level : Nat} {r : Rule} :
    r ∈ stratum levels rules level ↔
      r ∈ rules ∧ ∃ head, r.head = some head ∧ levels.level head.relation = level := by
  rw [stratum, List.mem_filter]
  cases r.head with
  | none => simp
  | some head => simp

theorem mem_stratum_of_head {levels : Levels} {level : Nat} {r : Rule} {head : Pattern}
    (hhead : r.head = some head) :
    r ∈ stratum levels rules level ↔ r ∈ rules ∧ levels.level head.relation = level := by
  simp [mem_stratum, hhead]

theorem safe_of_mem_stratum {levels : Levels} {level : Nat} (hsafe : ∀ r ∈ rules, r.Safe) :
    ∀ r ∈ stratum levels rules level, r.Safe :=
  fun r hr ↦ hsafe r (mem_stratum.1 hr).1

/-- An atom that a step adds is the head of an instance with a true body. -/
theorem exists_instance_of_absorb (hsafe : ∀ r ∈ rules, r.Safe) (hdb : db.WellFormed)
    (h : absorb budget (consequences db rules) db = some db') {a : Atom} (ha : a ∈ db'.atomSet) :
    a ∈ db.atomSet ∨ Derivable rules db.atomSet a := by
  rcases (Database.mem_atomSet_of_absorb h).1 ha with hnew | hold
  · obtain ⟨-, r, hr, head, σ, hhead, hbody, heq⟩ := (mem_consequences_iff hsafe hdb).1 hnew
    obtain ⟨hrel, hargs⟩ := Prod.mk.inj heq
    have hpred : head.predicate = a.predicate := congrArg Relation.name hrel.symm
    refine .inr ⟨r, hr, head, σ, hhead, ?_, hbody⟩
    cases a
    cases hpred
    cases hargs
    rfl
  · exact .inl hold

/-- The second database contains the first one, and what it contains besides is at the level. -/
structure GrowsAt (levels : Levels) (level : Nat) (db db' : Database) : Prop where
  wellFormed : db'.WellFormed
  subset : db.atomSet ⊆ db'.atomSet
  level_eq : ∀ a ∈ db'.atomSet, a ∈ db.atomSet ∨ levels.level a.relation = level

namespace GrowsAt

variable {levels : Levels} {level : Nat} {start : Database}

theorem refl (hdb : db.WellFormed) : GrowsAt levels level db db :=
  ⟨hdb, subset_rfl, fun _ ha ↦ .inl ha⟩

theorem step (hsafe : ∀ r ∈ rules, r.Safe) (hgrow : GrowsAt levels level start db)
    (h : absorb budget (consequences db (stratum levels rules level)) db = some db') :
    GrowsAt levels level start db' := by
  have hsafe' : ∀ r ∈ stratum levels rules level, r.Safe := safe_of_mem_stratum hsafe
  refine ⟨Database.wellFormed_of_absorb hsafe' hgrow.wellFormed h, fun a ha ↦ ?_, fun a ha ↦ ?_⟩
  · exact (Database.mem_atomSet_of_absorb h).2 (.inr (hgrow.subset ha))
  · rcases exists_instance_of_absorb hsafe' hgrow.wellFormed h ha with hold | hnew
    · exact hgrow.level_eq a hold
    · obtain ⟨r, hr, head, σ, hhead, rfl, -⟩ := hnew
      rw [Pattern.relation_atom]
      exact .inr ((mem_stratum_of_head hhead).1 hr).2

end GrowsAt

theorem growsAt_of_saturate {levels : Levels} {level : Nat} (hsafe : ∀ r ∈ rules, r.Safe)
    (hdb : db.WellFormed) (h : saturate budget (stratum levels rules level) db = some db') :
    GrowsAt levels level db db' ∧ consequences db' (stratum levels rules level) = [] :=
  saturate_induction (P := GrowsAt levels level db) (fun _ _ hgrow hstep ↦ hgrow.step hsafe hstep) h
    (GrowsAt.refl hdb)

/-! ## Saturating all strata -/

section Strata

variable {levels : Levels} {ks : List Nat}

theorem saturateStrata_cons {k : Nat}
    (h : saturateStrata budget levels rules (k :: ks) db = some db') :
    ∃ mid, saturate budget (stratum levels rules k) db = some mid ∧
      saturateStrata budget levels rules ks mid = some db' := by
  rw [saturateStrata] at h
  split at h
  · cases h
  · rename_i mid hmid
    exact ⟨mid, hmid, h⟩

theorem saturateStrata_grows (hsafe : ∀ r ∈ rules, r.Safe) (hdb : db.WellFormed)
    (h : saturateStrata budget levels rules ks db = some db') :
    db'.WellFormed ∧ db.atomSet ⊆ db'.atomSet ∧
      ∀ a ∈ db'.atomSet, a ∈ db.atomSet ∨ levels.level a.relation ∈ ks := by
  induction ks generalizing db with
  | nil =>
    cases h
    exact ⟨hdb, subset_rfl, fun a ha ↦ .inl ha⟩
  | cons k ks ih =>
    obtain ⟨mid, hmid, hrest⟩ := saturateStrata_cons h
    obtain ⟨hgrow, -⟩ := growsAt_of_saturate hsafe hdb hmid
    obtain ⟨hwf, hsub, hlevel⟩ := ih hgrow.wellFormed hrest
    refine ⟨hwf, hgrow.subset.trans hsub, fun a ha ↦ ?_⟩
    rcases hlevel a ha with hmem | hks
    · rcases hgrow.level_eq a hmem with hold | hk
      · exact .inl hold
      · exact .inr (hk ▸ List.mem_cons_self)
    · exact .inr (List.mem_cons_of_mem k hks)

/-- A body that is true in the end has been true when the stratum of the rule was done: what came
later is on higher levels. -/
theorem bodyHolds_of_final {r : Rule} {head : Pattern} {σ : Valuation} {M N : Set Atom}
    (hadmits : ∀ l ∈ r.body, l.Admits levels.level (levels.level head.relation)) (hsub : N ⊆ M)
    (hlater : ∀ a ∈ M, a ∈ N ∨ levels.level head.relation < levels.level a.relation)
    (hbody : r.BodyHolds M σ) : r.BodyHolds N σ := by
  rw [Rule.bodyHolds_iff] at hbody ⊢
  refine ⟨fun p hp ↦ ?_, fun l hl hl' ↦ ?_⟩
  · rcases hlater _ (hbody.1 p hp) with hmem | hlt
    · exact hmem
    · rw [Pattern.relation_atom] at hlt
      exact absurd (hadmits _ hp) (Nat.not_le.2 hlt)
  · exact (hbody.2 l hl hl').congr hl' fun _ _ a _ ha ↦ hsub ha

/-- A filter that lets a binding pass while the stratum of the rule is saturated is true in the end:
what it negates is below the stratum, and nothing is added there any more. -/
theorem holds_of_current {r : Rule} {head : Pattern} {σ : Valuation} {M N : Set Atom}
    (hadmits : ∀ l ∈ r.body, l.Admits levels.level (levels.level head.relation))
    (hlater : ∀ a ∈ M, a ∈ N ∨ levels.level head.relation ≤ levels.level a.relation)
    (hbody : r.BodyHolds N σ) {l : Literal} (hl : l ∈ r.body) (hl' : l.isPositive = false) :
    l.Holds r M σ := by
  refine (hbody l hl).congr hl' fun p hp a ha haM ↦ ?_
  subst hp
  have hlt : levels.level p.relation < levels.level head.relation := hadmits _ hl
  rcases hlater a haM with hmem | hle
  · exact hmem
  · rw [ha] at hle
    exact absurd hlt (Nat.not_lt.2 hle)

/-- A saturated database has the heads of all instances with true bodies. -/
theorem mem_of_consequences_eq_nil {r : Rule} {head : Pattern} {σ : Valuation}
    (hsafe : ∀ r ∈ rules, r.Safe) (hdb : db.WellFormed) (hdone : consequences db rules = [])
    (hr : r ∈ rules) (hhead : r.head = some head) (hbody : r.BodyHolds db.atomSet σ) :
    head.atom σ ∈ db.atomSet := by
  by_contra hnew
  have hfresh : db.contains head.relation (head.atom σ).args = false := by
    rw [← head.relation_atom σ]
    exact Bool.eq_false_iff.2 hnew
  have hderived : (head.relation, (head.atom σ).args) ∈ consequences db rules :=
    (mem_consequences_iff hsafe hdb).2 ⟨hfresh, r, hr, head, σ, hhead, hbody, rfl⟩
  rw [hdone] at hderived
  exact absurd hderived List.not_mem_nil

theorem closed_of_saturateStrata (hsafe : ∀ r ∈ rules, r.Safe)
    (hlevel : IsLeveling rules levels.level) (hdb : db.WellFormed) (hks : ks.Pairwise (· < ·))
    (h : saturateStrata budget levels rules ks db = some db') :
    ∀ r ∈ rules, ∀ head σ, r.head = some head → levels.level head.relation ∈ ks →
      r.BodyHolds db'.atomSet σ → head.atom σ ∈ db'.atomSet := by
  induction ks generalizing db with
  | nil => exact fun _ _ _ _ _ hmem ↦ absurd hmem List.not_mem_nil
  | cons k ks ih =>
    intro r hr head σ hhead hmem hbody
    obtain ⟨hk, hks⟩ := List.pairwise_cons.1 hks
    obtain ⟨mid, hmid, hrest⟩ := saturateStrata_cons h
    obtain ⟨hgrow, hdone⟩ := growsAt_of_saturate hsafe hdb hmid
    obtain ⟨-, hsub, hlater⟩ := saturateStrata_grows hsafe hgrow.wellFormed hrest
    rcases List.mem_cons.1 hmem with heq | hmem
    · -- later levels add nothing that a rule of this level looks at, and this level is done
      have hlater' : ∀ a ∈ db'.atomSet, a ∈ mid.atomSet ∨
          levels.level head.relation < levels.level a.relation := fun a ha ↦
        (hlater a ha).imp_right fun hks ↦ heq ▸ hk _ hks
      have hbody' : r.BodyHolds mid.atomSet σ :=
        bodyHolds_of_final (hlevel r hr head hhead) hsub hlater' hbody
      have hr' : r ∈ stratum levels rules k := (mem_stratum_of_head hhead).2 ⟨hr, heq⟩
      exact hsub (mem_of_consequences_eq_nil (safe_of_mem_stratum hsafe) hgrow.wellFormed hdone hr'
        hhead hbody')
    · exact ih hgrow.wellFormed hks hrest r hr head σ hhead hmem hbody

/-- A step stays in a set that is closed under the reduct with respect to the final atoms.  It reads
negations off the atoms so far, but what it negates is not added any more. -/
theorem subset_of_absorb {k : Nat} {M X : Set Atom} (hsafe : ∀ r ∈ rules, r.Safe)
    (hlevel : IsLeveling rules levels.level) (hdb : db.WellFormed)
    (hlater : ∀ a ∈ M, a ∈ db.atomSet ∨ k ≤ levels.level a.relation)
    (hX : IsClosed (reduct rules M) X) (hdbX : db.atomSet ⊆ X)
    (h : absorb budget (consequences db (stratum levels rules k)) db = some db') :
    db'.atomSet ⊆ X := by
  intro a ha
  rcases exists_instance_of_absorb (safe_of_mem_stratum hsafe) hdb h ha with hold | hnew
  · exact hdbX hold
  · obtain ⟨r, hr, head, σ, hhead, rfl, hbody⟩ := hnew
    obtain ⟨hmem, rfl⟩ := (mem_stratum_of_head hhead).1 hr
    have hadmits := hlevel r hmem head hhead
    exact isClosed_reduct_iff.1 hX r hmem head σ hhead (fun p hp ↦ hdbX (hbody _ hp))
      fun l hl hl' ↦ holds_of_current hadmits hlater hbody hl hl'

/-- The atoms that are added belong to every set that contains the first ones and is closed under
the reduct with respect to the final atoms. -/
theorem subset_of_saturateStrata (hsafe : ∀ r ∈ rules, r.Safe)
    (hlevel : IsLeveling rules levels.level) (hdb : db.WellFormed) (hks : ks.Pairwise (· < ·))
    (h : saturateStrata budget levels rules ks db = some db') {X : Set Atom}
    (hX : IsClosed (reduct rules db'.atomSet) X) (hdbX : db.atomSet ⊆ X) : db'.atomSet ⊆ X := by
  induction ks generalizing db with
  | nil =>
    cases h
    exact hdbX
  | cons k ks ih =>
    obtain ⟨mid, hmid, hrest⟩ := saturateStrata_cons h
    obtain ⟨hgrow, -⟩ := growsAt_of_saturate hsafe hdb hmid
    obtain ⟨-, -, hlater⟩ := saturateStrata_grows hsafe hdb h
    obtain ⟨hk, hks⟩ := List.pairwise_cons.1 hks
    have hlater' : ∀ a ∈ db'.atomSet, a ∈ db.atomSet ∨ k ≤ levels.level a.relation := by
      refine fun a ha ↦ (hlater a ha).imp_right fun hmem ↦ ?_
      rcases List.mem_cons.1 hmem with heq | hmem
      · exact Nat.le_of_eq heq.symm
      · exact Nat.le_of_lt (hk _ hmem)
    have hkeep : ∀ d d', GrowsAt levels k db d ∧ d.atomSet ⊆ X →
        absorb budget (consequences d (stratum levels rules k)) d = some d' →
        GrowsAt levels k db d' ∧ d'.atomSet ⊆ X := fun d d' ⟨hd, hdX⟩ hstep ↦
      ⟨hd.step hsafe hstep, subset_of_absorb hsafe hlevel hd.wellFormed
        (fun a ha ↦ (hlater' a ha).imp_left fun hmem ↦ hd.subset hmem) hX hdX hstep⟩
    have hmidX := saturate_induction (P := fun d ↦ GrowsAt levels k db d ∧ d.atomSet ⊆ X) hkeep hmid
      ⟨GrowsAt.refl hdb, hdbX⟩
    exact ih hgrow.wellFormed hks hrest hmidX.1.2

end Strata

/-- The levels that an evaluation goes through. -/
def allLevels (rules : List Rule) : List Nat := List.range ((relationsOf rules).size + 1)

/-- **What saturating all strata arrives at is an answer set.** -/
theorem isAnswerSet_of_saturateStrata {levels : Levels} (hsafe : ∀ r ∈ rules, r.Safe)
    (hlevels : stratify rules = .ok levels)
    (h : saturateStrata budget levels rules (allLevels rules) .empty = some db) :
    IsAnswerSet rules db.atomSet := by
  have hlevel := isLeveling_of_stratify hlevels
  have hsorted : (allLevels rules).Pairwise (· < ·) := List.pairwise_lt_range
  have hempty : (Database.empty).atomSet = ∅ := by
    ext a
    simp [Database.atomSet]
  constructor
  · refine isClosed_reduct_iff.2 fun r hr head σ hhead hpos hrest ↦ ?_
    have hmem : levels.level head.relation ∈ allLevels rules :=
      List.mem_range.2 (Nat.lt_succ_of_le (level_le_of_stratify hlevels _))
    exact closed_of_saturateStrata hsafe hlevel Database.wellFormed_empty hsorted h r hr head σ
      hhead hmem (Rule.bodyHolds_iff.2 ⟨hpos, hrest⟩)
  · intro X hX
    refine subset_of_saturateStrata hsafe hlevel Database.wellFormed_empty hsorted h hX ?_
    rw [hempty]
    exact Set.empty_subset X

end RightOfWay
