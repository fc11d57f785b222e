import Mathlib.Logic.Relation
import RightOfWay.Proofs.Rules.Meaning

/-!
# The budget is a threshold

An evaluation gives up in the middle of a round, while it puts in what the round has derived, and
the same tuple may be derived several times.  Still there is one number that decides for every
budget: the number of atoms that the rules derive altogether (`evaluate_threshold`).

To speak of what happens on the way, `Progress` says how far an evaluation has come, and
`Progress.Step` takes it on by a single tuple, round or stratum.

* No sequence of steps goes on for ever (`Progress.wellFounded_step`).  A round that derives
  anything derives something new, and putting that in takes from the budget; before that happens,
  the round can only put in what is there already, and becomes shorter.
* Where the steps stop, the state tells how the evaluation ends (`Progress.Stopped.evaluate_eq`).
* In every state the size that the database keeps is the number of its tuples
  (`Progress.size_eq_of_reaches`).
-/

set_option autoImplicit false

namespace RightOfWay

/-- How far an evaluation has come. -/
structure Progress where
  /-- The strata that are not saturated yet.  Rounds go over the first one. -/
  strata : List (List Rule)
  /-- What the present round has derived and not put in yet. -/
  pending : List Derived
  db : Database

namespace Progress

/-- A step of an evaluation: a round derives something, a tuple is put in, or nothing more can be
derived in a stratum.  When there are more tuples than the budget allows, there is none. -/
inductive Step (budget : Nat) : Progress → Progress → Prop
  | derive {rules : List Rule} {strata : List (List Rule)} {db : Database}
      (hsize : db.size ≤ budget) (hmore : consequences db rules ≠ []) :
      Step budget ⟨rules :: strata, [], db⟩ ⟨rules :: strata, consequences db rules, db⟩
  | insert {strata : List (List Rule)} {d : Derived} {ds : List Derived} {db : Database}
      (hsize : db.size ≤ budget) :
      Step budget ⟨strata, d :: ds, db⟩ ⟨strata, ds, db.insert d.1 d.2⟩
  | ascend {rules : List Rule} {strata : List (List Rule)} {db : Database}
      (hsize : db.size ≤ budget) (hdone : consequences db rules = []) :
      Step budget ⟨rules :: strata, [], db⟩ ⟨strata, [], db⟩

/-- Any number of steps. -/
def Reaches (budget : Nat) : Progress → Progress → Prop := Relation.ReflTransGen (Step budget)

/-- There is no further step. -/
def Stopped (budget : Nat) (p : Progress) : Prop := ∀ q, ¬ Step budget p q

/-- Nothing has been derived yet. -/
def start (levels : Levels) (rules : List Rule) : Progress :=
  ⟨(allLevels rules).map (stratum levels rules), [], .empty⟩

/-- How the evaluation of the rules ends that stops here. -/
def verdict (budget : Nat) (rules : List Rule) (p : Progress) : Evaluation :=
  if budget < p.db.size then .budgetExceeded
  else
    match rules.find? (Rule.violated p.db) with
    | some constraint => .constraintViolated constraint.line
    | none => .model p.db.atoms

variable {budget : Nat} {p q q' : Progress} {rules : List Rule} {strata : List (List Rule)}
  {ds : List Derived} {db db' : Database}

/-! ## Steps come to an end -/

/-- What has been derived and not put in is in the database already. -/
def repeats (p : Progress) : Bool := p.pending.all fun d ↦ p.db.contains d.1 d.2

/-- What becomes less with every step, from the most to the least important. -/
def remaining (budget : Nat) (p : Progress) : Nat × Nat × Nat × Nat :=
  (p.strata.length, budget + 1 - p.db.size, p.repeats.toNat, p.pending.length)

/-- The order in which `remaining` becomes less. -/
def Less : Nat × Nat × Nat × Nat → Nat × Nat × Nat × Nat → Prop :=
  Prod.Lex (· < ·) (Prod.Lex (· < ·) (Prod.Lex (· < ·) (· < ·)))

theorem wellFounded_less : WellFounded Less :=
  WellFounded.prod_lex Nat.lt_wfRel.wf
    (WellFounded.prod_lex Nat.lt_wfRel.wf (WellFounded.prod_lex Nat.lt_wfRel.wf Nat.lt_wfRel.wf))

theorem insert_of_contains {d : Derived} (h : db.contains d.1 d.2 = true) :
    db.insert d.1 d.2 = db := if_pos h

theorem less_of_insert {d : Derived} (hsize : db.size ≤ budget) :
    Less (remaining budget ⟨strata, ds, db.insert d.1 d.2⟩)
      (remaining budget ⟨strata, d :: ds, db⟩) := by
  refine .right _ ?_
  by_cases hold : db.contains d.1 d.2 = true
  · have hrepeats : repeats ⟨strata, d :: ds, db⟩ = repeats ⟨strata, ds, db⟩ := by
      rw [repeats, List.all_cons, hold, Bool.true_and]
      rfl
    rw [insert_of_contains hold, hrepeats]
    exact .right _ (.right _ (Nat.lt_succ_self _))
  · refine .left _ _ ?_
    have hinsert : (db.insert d.1 d.2).size = db.size + 1 := by
      rw [Database.size_insert, if_neg hold]
    dsimp only
    omega

theorem less_of_step (h : Step budget p q) : Less (remaining budget q) (remaining budget p) := by
  cases h with
  | derive hsize hmore =>
    rename_i rules strata db
    -- nothing is pending before the round, and what it derives is new
    have hrepeats : repeats ⟨rules :: strata, consequences db rules, db⟩ = false := by
      obtain ⟨d, hd⟩ := List.exists_mem_of_ne_nil _ hmore
      exact List.all_eq_false.2 ⟨d, hd, by simp [not_contains_of_mem_consequences hd]⟩
    refine .right _ (.right _ (.left _ _ ?_))
    rw [hrepeats]
    exact Nat.zero_lt_one
  | insert hsize => exact less_of_insert hsize
  | ascend => exact .left _ _ (Nat.lt_succ_self _)

/-- **Every evaluation comes to an end**, whatever the budget. -/
theorem wellFounded_step (budget : Nat) : WellFounded fun q p ↦ Step budget p q :=
  Subrelation.wf less_of_step (InvImage.wf (remaining budget) wellFounded_less)

/-! ## Where they end -/

theorem step_unique (h : Step budget p q) (h' : Step budget p q') : q = q' := by
  cases h with
  | derive hsize hmore =>
    cases h' with
    | derive => rfl
    | ascend _ hdone => exact absurd hdone hmore
  | insert =>
    cases h'
    rfl
  | ascend hsize hdone =>
    cases h' with
    | derive _ hmore => exact absurd hdone hmore
    | ascend => rfl

theorem stopped_of_lt (h : budget < p.db.size) : Stopped budget p := by
  intro q hstep
  cases hstep with
  | derive hsize | insert hsize | ascend hsize => exact absurd hsize (Nat.not_le.2 h)

theorem stopped_nil (budget : Nat) (db : Database) : Stopped budget ⟨[], [], db⟩ := nofun

theorem Stopped.eq_of_reaches (h : Stopped budget p) (hreaches : Reaches budget p q) : p = q := by
  rcases hreaches.cases_head with rfl | ⟨_, hstep, -⟩
  · rfl
  · exact absurd hstep (h _)

theorem Stopped.unique (hq : Stopped budget q) (hq' : Stopped budget q')
    (hreaches : Reaches budget p q) (hreaches' : Reaches budget p q') : q = q' := by
  have hunique : Relator.RightUnique (Step budget) := fun _ _ _ ↦ step_unique
  rcases hreaches.total_of_right_unique hunique hreaches' with h | h
  · exact hq.eq_of_reaches h
  · exact (hq'.eq_of_reaches h).symm

theorem step_of_cons {d : Derived} (strata : List (List Rule)) (hsize : db.size ≤ budget)
    (h : consequences db rules = d :: ds) :
    Step budget ⟨rules :: strata, [], db⟩ ⟨rules :: strata, d :: ds, db⟩ := by
  rw [← h]
  exact .derive hsize (by rw [h]; exact List.cons_ne_nil d ds)

/-- The steps from the state do what the result says: they lead to where a database is passed on to,
and if there is none, to more tuples than the budget allows. -/
def Follows (budget : Nat) (p : Progress) (next : Database → Progress) : Option Database → Prop
  | none => ∃ q, Reaches budget p q ∧ budget < q.db.size
  | some db => Reaches budget p (next db) ∧ db.size ≤ budget

theorem Follows.of_reaches {next : Database → Progress} {result : Option Database}
    (hreaches : Reaches budget p q) (h : Follows budget q next result) :
    Follows budget p next result := by
  cases result with
  | none =>
    obtain ⟨q', hq', hsize⟩ := h
    exact ⟨q', hreaches.trans hq', hsize⟩
  | some db => exact ⟨hreaches.trans h.1, h.2⟩

theorem follows_absorb (strata : List (List Rule)) (ds : List Derived) (hsize : db.size ≤ budget) :
    Follows budget ⟨strata, ds, db⟩ (⟨strata, [], ·⟩) (absorb budget ds db) := by
  induction ds generalizing db with
  | nil => exact ⟨.refl, hsize⟩
  | cons d ds ih =>
    have hstep : Reaches budget ⟨strata, d :: ds, db⟩ ⟨strata, ds, db.insert d.1 d.2⟩ :=
      .single (.insert hsize)
    rw [absorb]
    split
    · rename_i hexceeded
      exact ⟨_, hstep, hexceeded⟩
    · rename_i hfits
      exact (ih (Nat.le_of_not_lt hfits)).of_reaches hstep

theorem follows_saturate (strata : List (List Rule)) (hsize : db.size ≤ budget) :
    Follows budget ⟨rules :: strata, [], db⟩ (⟨strata, [], ·⟩) (saturate budget rules db) := by
  fun_induction saturate budget rules db with
  | case1 db hdone => exact ⟨.single (.ascend hsize hdone), hsize⟩
  | case2 db d ds hds hnone =>
    have hround := step_of_cons strata hsize hds
    have habsorb := follows_absorb (rules :: strata) (d :: ds) hsize
    rw [hnone] at habsorb
    exact habsorb.of_reaches (.single hround)
  | case3 db d ds hds mid hmid ih =>
    have hround := step_of_cons strata hsize hds
    have habsorb := follows_absorb (rules :: strata) (d :: ds) hsize
    rw [hmid] at habsorb
    exact (ih habsorb.2).of_reaches (habsorb.1.head hround)

theorem follows_saturateStrata {levels : Levels} (ks : List Nat) (hsize : db.size ≤ budget) :
    Follows budget ⟨ks.map (stratum levels rules), [], db⟩ (⟨[], [], ·⟩)
      (saturateStrata budget levels rules ks db) := by
  induction ks generalizing db with
  | nil => exact ⟨.refl, hsize⟩
  | cons k ks ih =>
    have hfirst : Follows budget ⟨(k :: ks).map (stratum levels rules), [], db⟩
        (⟨ks.map (stratum levels rules), [], ·⟩) (saturate budget (stratum levels rules k) db) :=
      follows_saturate _ hsize
    rw [saturateStrata]
    cases hresult : saturate budget (stratum levels rules k) db with
    | none =>
      rw [hresult] at hfirst
      exact hfirst
    | some mid =>
      rw [hresult] at hfirst
      exact (ih hfirst.2).of_reaches hfirst.1

theorem Stopped.saturateStrata_eq {levels : Levels} (h : Stopped budget p)
    (hreaches : Reaches budget (start levels rules) p) :
    saturateStrata budget levels rules (allLevels rules) .empty =
      if budget < p.db.size then none else some p.db := by
  have hfollows : Follows budget (start levels rules) (⟨[], [], ·⟩)
      (saturateStrata budget levels rules (allLevels rules) .empty) :=
    follows_saturateStrata (allLevels rules) (Nat.zero_le budget)
  cases hresult : saturateStrata budget levels rules (allLevels rules) .empty with
  | none =>
    rw [hresult] at hfollows
    obtain ⟨q, hq, hsize⟩ := hfollows
    obtain rfl := h.unique (stopped_of_lt hsize) hreaches hq
    exact (if_pos hsize).symm
  | some db =>
    rw [hresult] at hfollows
    obtain rfl := h.unique (stopped_nil budget db) hreaches hfollows.1
    exact (if_neg (Nat.not_lt.2 hfollows.2)).symm

/-- **Where the steps stop, the state tells how the evaluation ends.** -/
theorem Stopped.evaluate_eq {levels : Levels} (hlevels : stratify rules = .ok levels)
    (h : Stopped budget p) (hreaches : Reaches budget (start levels rules) p) :
    evaluate budget rules = p.verdict budget rules := by
  have hresult := h.saturateStrata_eq hreaches
  rw [allLevels] at hresult
  by_cases hsize : budget < p.db.size
  · rw [if_pos hsize] at hresult
    rw [verdict, if_pos hsize, evaluate, hlevels]
    dsimp only
    rw [hresult]
  · rw [if_neg hsize] at hresult
    rw [verdict, if_neg hsize, evaluate, hlevels]
    dsimp only
    rewrite [hresult]
    rfl

/-! ## The size -/

theorem exists_counts_of_step (h : Step budget p q) (hp : ∃ s, p.db.Counts s) :
    ∃ s, q.db.Counts s := by
  cases h with
  | derive => exact hp
  | insert =>
    obtain ⟨s, hs⟩ := hp
    exact ⟨_, hs.insert _ _⟩
  | ascend => exact hp

theorem exists_counts_of_reaches (h : Reaches budget p q) (hp : ∃ s, p.db.Counts s) :
    ∃ s, q.db.Counts s := by
  induction h with
  | refl => exact hp
  | tail _ hstep ih => exact exists_counts_of_step hstep ih

theorem size_eq_of_reaches {levels : Levels} (h : Reaches budget (start levels rules) p) :
    p.db.size = p.db.derived.length := by
  obtain ⟨s, hs⟩ := exists_counts_of_reaches h ⟨∅, Database.counts_empty⟩
  exact hs.size_eq_length

end Progress

/-! ## The threshold -/

variable {text : String} {rules : List Rule} {levels : Levels} {db : Database} {budget : Nat}

/-- The rules derive nothing more from a database whose atoms are an answer set. -/
theorem IsAnswerSet.consequences_eq_nil (h : IsAnswerSet rules db.atomSet)
    (hsafe : ∀ r ∈ rules, r.Safe) (hdb : db.WellFormed) : consequences db rules = [] := by
  refine List.eq_nil_iff_forall_not_mem.2 fun d hd ↦ ?_
  obtain ⟨hnew, r, hr, head, σ, hhead, hbody, rfl⟩ := (mem_consequences_iff hsafe hdb).1 hd
  have hold : db.contains head.relation (head.atom σ).args = true :=
    Database.atom_mem_atomSet_iff.1 (h.mem_iff.2 ⟨r, hr, head, σ, hhead, rfl, hbody⟩)
  rw [hnew] at hold
  cases hold

namespace IsFinal

theorem budgetExceeded_iff (h : IsFinal rules levels db) (hlevels : stratify rules = .ok levels) :
    evaluate budget rules = .budgetExceeded ↔ budget < db.atoms.length := by
  refine ⟨fun hexceeded ↦ Nat.lt_of_not_le fun hfits ↦ ?_, h.evaluate_of_lt hlevels⟩
  rw [h.evaluate_eq hlevels hfits] at hexceeded
  split at hexceeded <;> cases hexceeded

/-- Stopping with a database that the budget allows for is stopping with the final one. -/
theorem eq_of_stopped {p : Progress} (h : IsFinal rules levels db) (hstopped : p.Stopped budget)
    (hreaches : Progress.Reaches budget (.start levels rules) p) (hsize : p.db.size ≤ budget) :
    p.db = db := by
  have hsat := hstopped.saturateStrata_eq hreaches
  rw [if_neg (Nat.not_lt.2 hsize)] at hsat
  -- with more budget both arrive at the same database
  have hmore := saturateStrata_of_size_le hsat (Nat.le_add_left p.db.size db.atoms.length)
  rw [h.saturated _ (Nat.le_add_right _ _)] at hmore
  cases hmore
  rfl

end IsFinal

/-- **The budget is a threshold.**  Rules that were read from a text and have levels derive some
number of atoms altogether, those of the database `full`, from which nothing more can be derived.

* With a smaller budget than this number the evaluation gives up, and with no other.
* All other budgets have the same result.
* With every budget the steps of the evaluation come to an end.  On the way the size of the database
  is always the number of its tuples, and the state that has no further step tells the result.
  Unless this is that the budget is exceeded, the database is then `full`. -/
theorem evaluate_threshold (hparse : parseProgram text = .ok rules)
    (hlevels : stratify rules = .ok levels) :
    ∃ full : Database,
      full.atoms.Nodup ∧ IsAnswerSet rules {a | a ∈ full.atoms} ∧ consequences full rules = [] ∧
      (∀ budget, evaluate budget rules = .budgetExceeded ↔ budget < full.atoms.length) ∧
      (∀ budget, full.atoms.length ≤ budget →
        evaluate budget rules = evaluate full.atoms.length rules) ∧
      ∀ budget, (WellFounded fun q p ↦ Progress.Step budget p q) ∧
        ∀ p, Progress.Reaches budget (.start levels rules) p →
          p.db.size = p.db.derived.length ∧
          (p.Stopped budget → evaluate budget rules = p.verdict budget rules ∧
            (p.db.size ≤ budget → p.db = full)) := by
  have hsafe := safe_of_parseProgram hparse
  obtain ⟨full, hfull⟩ := exists_isFinal hsafe levels
  have hanswer := hfull.isAnswerSet hsafe hlevels
  refine ⟨full, Database.nodup_atoms hfull.wellFormed, hanswer, ?_,
    fun budget ↦ hfull.budgetExceeded_iff hlevels, fun budget hbudget ↦ ?_,
    fun budget ↦ ⟨Progress.wellFounded_step budget, fun p hp ↦ ⟨Progress.size_eq_of_reaches hp,
      fun hstopped ↦ ⟨hstopped.evaluate_eq hlevels hp, fun hsize ↦ ?_⟩⟩⟩⟩
  · rw [Database.setOf_mem_atoms hfull.wellFormed] at hanswer
    exact hanswer.consequences_eq_nil hsafe hfull.wellFormed
  · rw [hfull.evaluate_eq hlevels hbudget, hfull.evaluate_eq hlevels (Nat.le_refl _)]
  · exact hfull.eq_of_stopped hstopped hp hsize

/-- The rules for sources derive two atoms, and with a smaller budget their evaluation gives up. -/
theorem evaluate_threshold_sources :
    parseProgram "edge(1,2).\nsource(X) :- edge(X,_), not edge(_,X)." = .ok sources ∧
      ∃ levels, stratify sources = .ok levels ∧
        ∃ full : Database, IsAnswerSet sources {a | a ∈ full.atoms} ∧
          ∀ budget, evaluate budget sources = .budgetExceeded ↔ budget < full.atoms.length := by
  obtain ⟨levels, hlevels⟩ := exists_stratify_iff.2 ⟨_, isLeveling_sources⟩
  obtain ⟨full, -, hanswer, -, hthreshold, -⟩ := evaluate_threshold parseProgram_sources hlevels
  exact ⟨parseProgram_sources, levels, hlevels, full, hanswer, hthreshold⟩

end RightOfWay
