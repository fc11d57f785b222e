import RightOfWay.Proofs.Rules.Budget
import RightOfWay.Rules.Grammar

/-!
# What an evaluation says

`evaluate` on the rules of a program text, against the answer sets of these rules.

* Rules that `parseProgram` returns are safe (`safe_of_parseProgram`), so that matching is exact for
  them.
* `IsFinal` says that a database is what the strata of a program are saturated to.  There is such a
  database (`exists_isFinal`), and its atoms are the only answer set (`IsFinal.isAnswerSet`,
  `IsFinal.unique`).
* With a budget that the final database fits into, `evaluate` looks for a constraint that the answer
  set violates and gives the answer set if there is none (`evaluate_exact`).  A smaller budget may
  only make it give up (`budget_lt_of_budgetExceeded`).
-/

set_option autoImplicit false

namespace RightOfWay

variable {text : String} {rules : List Rule} {levels : Levels} {budget : Nat} {db : Database}

/-! ## Safety -/

theorem unsafeVar?_of_parseProgram (h : parseProgram text = .ok rules) {r : Rule} (hr : r ∈ rules) :
    r.unsafeVar? = none := by
  rw [parseProgram] at h
  split at h
  · cases h
  dsimp only at h
  split at h
  · cases h
  rename_i hsafe
  split at h
  · cases h
  · cases h
    have hnone := List.findSome?_eq_none_iff.1 hsafe r hr
    rwa [Option.map_eq_none_iff] at hnone

theorem safe_of_parseProgram (h : parseProgram text = .ok rules) : ∀ r ∈ rules, r.Safe :=
  fun _ hr ↦ Rule.safe_of_unsafeVar?_eq_none (unsafeVar?_of_parseProgram h hr)

/-! ## The final database -/

/-- A constraint of the program has an instance whose body is true in the set. -/
def Violates (rules : List Rule) (M : Set Atom) : Prop :=
  ∃ r ∈ rules, r.head = none ∧ ∃ σ, r.BodyHolds M σ

/-- Saturating all strata arrives at this database with every budget that it fits into. -/
structure IsFinal (rules : List Rule) (levels : Levels) (db : Database) : Prop where
  wellFormed : db.WellFormed
  saturated : ∀ budget, db.atoms.length ≤ budget →
    saturateStrata budget levels rules (allLevels rules) .empty = some db

theorem exists_isFinal (hsafe : ∀ r ∈ rules, r.Safe) (levels : Levels) :
    ∃ db, IsFinal rules levels db := by
  obtain ⟨db, hdb, hsat⟩ := exists_saturateStrata hsafe levels (allLevels rules)
  exact ⟨db, hdb, hsat⟩

theorem Database.setOf_mem_atoms (hdb : db.WellFormed) : {a | a ∈ db.atoms} = db.atomSet := by
  ext a
  exact mem_atoms hdb

namespace IsFinal

theorem isAnswerSet (h : IsFinal rules levels db) (hsafe : ∀ r ∈ rules, r.Safe)
    (hlevels : stratify rules = .ok levels) : IsAnswerSet rules {a | a ∈ db.atoms} := by
  rw [Database.setOf_mem_atoms h.wellFormed]
  exact isAnswerSet_of_saturateStrata hsafe hlevels (h.saturated _ (Nat.le_refl _))

theorem unique (h : IsFinal rules levels db) (hsafe : ∀ r ∈ rules, r.Safe)
    (hlevels : stratify rules = .ok levels) {N : Set Atom} (hN : IsAnswerSet rules N) :
    N = {a | a ∈ db.atoms} :=
  IsAnswerSet.unique (isLeveling_of_stratify hlevels) hN (h.isAnswerSet hsafe hlevels)

theorem exists_violated_iff (h : IsFinal rules levels db) (hsafe : ∀ r ∈ rules, r.Safe) :
    (∃ r ∈ rules, r.violated db = true) ↔ Violates rules {a | a ∈ db.atoms} := by
  rw [Database.setOf_mem_atoms h.wellFormed]
  constructor
  · rintro ⟨r, hr, hviolated⟩
    exact ⟨r, hr, (Rule.violated_iff (hsafe r hr) h.wellFormed).1 hviolated⟩
  · rintro ⟨r, hr, hbody⟩
    exact ⟨r, hr, (Rule.violated_iff (hsafe r hr) h.wellFormed).2 hbody⟩

theorem evaluate_eq (h : IsFinal rules levels db) (hlevels : stratify rules = .ok levels)
    (hbudget : db.atoms.length ≤ budget) :
    evaluate budget rules =
      match rules.find? (Rule.violated db) with
      | some constraint => .constraintViolated constraint.line
      | none => .model db.atoms := by
  have hsat := h.saturated budget hbudget
  rw [allLevels] at hsat
  cases hfind : rules.find? (Rule.violated db) with
  | none => simp only [evaluate, hlevels, hsat, hfind]
  | some constraint => simp only [evaluate, hlevels, hsat, hfind]

theorem exists_constraintViolated_iff (h : IsFinal rules levels db) (hsafe : ∀ r ∈ rules, r.Safe)
    (hlevels : stratify rules = .ok levels) (hbudget : db.atoms.length ≤ budget) :
    (∃ line, evaluate budget rules = .constraintViolated line) ↔
      Violates rules {a | a ∈ db.atoms} := by
  rw [← h.exists_violated_iff hsafe, h.evaluate_eq hlevels hbudget]
  split
  · rename_i r hr
    exact ⟨fun _ ↦ ⟨r, List.mem_of_find?_eq_some hr, List.find?_some hr⟩, fun _ ↦ ⟨r.line, rfl⟩⟩
  · rename_i hnone
    constructor
    · rintro ⟨_, heq⟩
      cases heq
    · rintro ⟨r, hr, hviolated⟩
      exact absurd hviolated (List.find?_eq_none.1 hnone r hr)

theorem evaluate_of_not_violates (h : IsFinal rules levels db) (hsafe : ∀ r ∈ rules, r.Safe)
    (hlevels : stratify rules = .ok levels) (hbudget : db.atoms.length ≤ budget)
    (hsound : ¬ Violates rules {a | a ∈ db.atoms}) : evaluate budget rules = .model db.atoms := by
  rw [h.evaluate_eq hlevels hbudget]
  split
  · rename_i r hr
    exact absurd ((h.exists_violated_iff hsafe).1
      ⟨r, List.mem_of_find?_eq_some hr, List.find?_some hr⟩) hsound
  · rfl

/-- A smaller budget is not enough. -/
theorem evaluate_of_lt (h : IsFinal rules levels db) (hlevels : stratify rules = .ok levels)
    (hbudget : budget < db.atoms.length) : evaluate budget rules = .budgetExceeded := by
  cases hsat : saturateStrata budget levels rules (allLevels rules) .empty with
  | none =>
    rw [allLevels] at hsat
    rw [evaluate, hlevels]
    dsimp only
    rw [hsat]
  | some db' =>
    -- with more budget the evaluation arrives at the same database
    have hmore := saturateStrata_of_size_le hsat (Nat.le_add_left db'.size db.atoms.length)
    rw [h.saturated _ (Nat.le_add_right _ _)] at hmore
    cases hmore
    exact absurd (length_atoms_le_of_saturateStrata hsat) (Nat.not_le.2 hbudget)

end IsFinal

/-- Without a leveling the evaluation says so. -/
theorem exists_notStratifiable (h : ¬ ∃ level, IsLeveling rules level) (budget : Nat) :
    ∃ predicate, evaluate budget rules = .notStratifiable predicate := by
  cases hlevels : stratify rules with
  | ok levels => exact absurd (exists_stratify_iff.1 ⟨levels, hlevels⟩) h
  | error predicate => exact ⟨predicate, by rw [evaluate, hlevels]⟩

theorem evaluate_ne_notStratifiable (hlevels : stratify rules = .ok levels) (budget : Nat)
    (predicate : String) : evaluate budget rules ≠ .notStratifiable predicate := by
  rw [evaluate, hlevels]
  dsimp only
  split
  · exact nofun
  · split <;> exact nofun

/-- What an evaluation gives are the atoms of the database that the strata are saturated to. -/
theorem exists_database_of_evaluate {atoms : List Atom}
    (h : evaluate budget rules = .model atoms) :
    ∃ levels db, stratify rules = .ok levels ∧
      saturateStrata budget levels rules (allLevels rules) .empty = some db ∧ db.atoms = atoms := by
  cases hlevels : stratify rules with
  | error predicate =>
    rw [evaluate, hlevels] at h
    cases h
  | ok levels =>
    rw [evaluate, hlevels] at h
    dsimp only at h
    split at h
    · cases h
    rename_i db hsat
    split at h
    · cases h
    · cases h
      exact ⟨levels, db, rfl, hsat, rfl⟩

/-- Within its budget, whatever that is, an evaluation gives an answer set. -/
theorem isAnswerSet_of_evaluate (hsafe : ∀ r ∈ rules, r.Safe) {atoms : List Atom}
    (h : evaluate budget rules = .model atoms) : IsAnswerSet rules {a | a ∈ atoms} := by
  obtain ⟨levels, db, hlevels, hsat, rfl⟩ := exists_database_of_evaluate h
  rw [Database.setOf_mem_atoms (saturateStrata_grows hsafe Database.wellFormed_empty hsat).1]
  exact isAnswerSet_of_saturateStrata hsafe hlevels hsat

/-- Only a constraint can be violated. -/
theorem exists_constraint_of_evaluate {line : Nat}
    (h : evaluate budget rules = .constraintViolated line) : ∃ r ∈ rules, r.head = none := by
  rw [evaluate] at h
  split at h
  · cases h
  dsimp only at h
  split at h
  · cases h
  split at h
  · rename_i r hr
    have hviolated := List.find?_some hr
    rw [Rule.violated, Bool.and_eq_true, Option.isNone_iff_eq_none] at hviolated
    exact ⟨r, List.mem_of_find?_eq_some hr, hviolated.1⟩
  · cases h

/-- An evaluation gives up only on programs that derive more atoms than the budget allows. -/
theorem budget_lt_of_budgetExceeded (hsafe : ∀ r ∈ rules, r.Safe)
    (h : evaluate budget rules = .budgetExceeded) :
    ∃ db levels, stratify rules = .ok levels ∧ IsFinal rules levels db ∧
      budget < db.atoms.length := by
  cases hlevels : stratify rules with
  | error predicate =>
    rw [evaluate, hlevels] at h
    cases h
  | ok levels =>
    obtain ⟨db, hdb⟩ := exists_isFinal hsafe levels
    refine ⟨db, levels, rfl, hdb, Nat.lt_of_not_le fun hbudget ↦ ?_⟩
    rw [hdb.evaluate_eq hlevels hbudget] at h
    split at h <;> cases h

/-- **The stratified evaluator computes the answer set.**  For rules that were read from a text and
have levels there is a database `db` at which saturating every stratum arrives, whatever budget of
at least its number of atoms is given.  Its atoms are the only answer set of the rules.  With such a
budget the evaluation reports a violated constraint exactly if a constraint has an instance with a
body that is true in the answer set, and otherwise gives the atoms of the answer set. -/
theorem evaluate_exact (hparse : parseProgram text = .ok rules)
    (hlevels : stratify rules = .ok levels) :
    ∃ db : Database,
      (∀ budget, db.atoms.length ≤ budget →
        saturateStrata budget levels rules (allLevels rules) .empty = some db) ∧
      db.atoms.Nodup ∧
      IsAnswerSet rules {a | a ∈ db.atoms} ∧
      (∀ N, IsAnswerSet rules N → N = {a | a ∈ db.atoms}) ∧
      ∀ budget, db.atoms.length ≤ budget →
        ((∃ line, evaluate budget rules = .constraintViolated line) ↔
          ∃ r ∈ rules, r.head = none ∧ ∃ σ, r.BodyHolds {a | a ∈ db.atoms} σ) ∧
        ((¬ ∃ r ∈ rules, r.head = none ∧ ∃ σ, r.BodyHolds {a | a ∈ db.atoms} σ) →
          evaluate budget rules = .model db.atoms) := by
  have hsafe := safe_of_parseProgram hparse
  obtain ⟨db, hdb⟩ := exists_isFinal hsafe levels
  refine ⟨db, hdb.saturated, Database.nodup_atoms hdb.wellFormed, hdb.isAnswerSet hsafe hlevels,
    fun N hN ↦ hdb.unique hsafe hlevels hN, fun budget hbudget ↦ ⟨?_, ?_⟩⟩
  · exact hdb.exists_constraintViolated_iff hsafe hlevels hbudget
  · exact hdb.evaluate_of_not_violates hsafe hlevels hbudget

/-- The rules for the nodes of a graph that no edge leads to.  They negate a relation, with an
anonymous variable. -/
def sources : List Rule :=
  [⟨some ⟨"edge", [.const (.int 1), .const (.int 2)]⟩, [], 1⟩,
    ⟨some ⟨"source", [.var "X"]⟩,
      [.pos ⟨"edge", [.var "X", .var "_1"]⟩, .neg ⟨"edge", [.var "_2", .var "X"]⟩], 2⟩]

theorem isLeveling_sources : IsLeveling sources fun r ↦ if r.name = "source" then 1 else 0 := by
  simp [sources, IsLeveling, Literal.Admits, Pattern.relation]

theorem parseProgram_sources :
    parseProgram "edge(1,2).\nsource(X) :- edge(X,_), not edge(_,X)." = .ok sources := by
  decide +kernel

theorem evaluate_exact_sources :
    parseProgram "edge(1,2).\nsource(X) :- edge(X,_), not edge(_,X)." = .ok sources ∧
      ∃ levels, stratify sources = .ok levels ∧
        ∃ db : Database, IsAnswerSet sources {a | a ∈ db.atoms} ∧
          ∀ N, IsAnswerSet sources N → N = {a | a ∈ db.atoms} := by
  obtain ⟨levels, hlevels⟩ := exists_stratify_iff.2 ⟨_, isLeveling_sources⟩
  obtain ⟨db, -, -, hanswer, honly, -⟩ := evaluate_exact parseProgram_sources hlevels
  exact ⟨parseProgram_sources, levels, hlevels, db, hanswer, honly⟩

end RightOfWay
