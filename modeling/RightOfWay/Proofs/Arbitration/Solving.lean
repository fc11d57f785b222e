import RightOfWay.Proofs.Arbitration.ProgramText
import RightOfWay.Proofs.Rules.Meaning

/-!
# Solves with the built-in oracle

What comes of a solve if the monitor asks the oracle that evaluates programs itself.

* Rules that cannot be read make every solve a failure (`Monitor.outcome_of_error`).
* Rules that can be read are evaluated behind the facts of the monitor, as the program
  `programRules` (`Monitor.outcome_of_ok`).  It has a leveling exactly if the rules have one
  (`exists_stratify_programRules_iff`): facts have no bodies.
* An evaluation has at most one model, and canonical form changes nothing about that
  (`Evaluation.canonicalize_toOutcome`).
-/

set_option autoImplicit false

namespace RightOfWay

/-! ## Canonical form -/

theorem Evaluation.canonicalize_toOutcome {cap : Nat} (hcap : 0 < cap) (e : Evaluation) :
    e.toOutcome.canonicalize cap = e.toOutcome := by
  cases e with
  | model atoms =>
    have hleast : Outcome.leastModels cap [.ofAtoms atoms] = [.ofAtoms atoms] := by
      rw [Outcome.leastModels, toList_ofList (List.pairwise_singleton _ _)]
      exact List.take_of_length_le hcap
    simp only [toOutcome, Outcome.canonicalize, hleast]
  | constraintViolated line => rfl
  | notStratifiable predicate => rfl
  | budgetExceeded => rfl

theorem Evaluation.toOutcome_ne_failure (e : Evaluation) (f : Failure) :
    e.toOutcome ≠ .failure f := by
  cases e <;> exact nofun

/-! ## Programs of a monitor -/

/-- The rules of a program with these facts in front of the rules. -/
def programRules (facts : List Atom) (rules : List Rule) : List Rule :=
  factRules facts ++ rules.map (Rule.shift facts.length)

theorem mem_factRules {facts : List Atom} {r : Rule} (h : r ∈ factRules facts) :
    ∃ a ∈ facts, ∃ line, r = .ofAtom a line := by
  obtain ⟨k, hk, rfl⟩ := List.mem_mapIdx.1 h
  exact ⟨facts[k], List.getElem_mem hk, k + 1, rfl⟩

theorem isLeveling_programRules {facts : List Atom} {rules : List Rule} {level : Relation → Nat} :
    IsLeveling (programRules facts rules) level ↔ IsLeveling rules level := by
  constructor
  · intro h r hr head hhead
    exact h (r.shift facts.length) (List.mem_append_right _ (List.mem_map_of_mem hr)) head hhead
  · intro h r hr head hhead l hl
    rcases List.mem_append.1 hr with hfact | hrule
    · obtain ⟨a, -, line, rfl⟩ := mem_factRules hfact
      exact absurd hl List.not_mem_nil
    · obtain ⟨s, hs, rfl⟩ := List.mem_map.1 hrule
      exact h s hs head hhead l hl

/-- **Facts do not matter to stratification.** -/
theorem exists_stratify_programRules_iff {facts : List Atom} {rules : List Rule} :
    (∃ levels, stratify (programRules facts rules) = .ok levels) ↔
      ∃ levels, stratify rules = .ok levels := by
  rw [exists_stratify_iff, exists_stratify_iff]
  simp only [isLeveling_programRules]

namespace Monitor

variable {m : Monitor} {budget : Nat}

/-- The program that a sound monitor puts to its oracle. -/
theorem Sound.parseProgram_program (h : m.Sound) :
    parseProgram m.program.text = behindFacts m.facts (parseProgram m.rules) :=
  h.parseProgram_assemble m.rules

theorem Sound.parseProgram_of_ok (h : m.Sound) {rules : List Rule}
    (hrules : parseProgram m.rules = .ok rules) :
    parseProgram m.program.text = .ok (programRules m.facts rules) := by
  rw [h.parseProgram_program, hrules]
  rfl

theorem outcome_solve (horacle : m.advisor.oracle = .stratified budget) :
    m.solve.1.outcome = (solveText budget m.program.text).canonicalize m.advisor.cap := by
  show (m.advisor.oracle.reply _ m.program m.advisor.cap).toOutcome.canonicalize m.advisor.cap = _
  rw [horacle]
  rfl

theorem outcome_of_error (h : m.Sound) (horacle : m.advisor.oracle = .stratified budget)
    {e : RuleError} (hrules : parseProgram m.rules = .error e) :
    m.solve.1.outcome = .failure (.rules (e.shift m.facts.length)) := by
  rw [outcome_solve horacle, solveText, h.parseProgram_program, hrules]
  rfl

theorem outcome_of_ok (h : m.Sound) (horacle : m.advisor.oracle = .stratified budget)
    {rules : List Rule} (hrules : parseProgram m.rules = .ok rules) :
    m.solve.1.outcome = (evaluate budget (programRules m.facts rules)).toOutcome := by
  rw [outcome_solve horacle, solveText, h.parseProgram_program, hrules]
  exact Evaluation.canonicalize_toOutcome m.advisor.cap_pos _

theorem outcome_ne_failure (h : m.Sound) (horacle : m.advisor.oracle = .stratified budget)
    {rules : List Rule} (hrules : parseProgram m.rules = .ok rules) (f : Failure) :
    m.solve.1.outcome ≠ .failure f := by
  rw [outcome_of_ok h horacle hrules]
  exact Evaluation.toOutcome_ne_failure _ f

/-- A program of rules that can be stratified is left undetermined only for want of budget. -/
theorem budget_lt_of_undetermined (h : m.Sound) (horacle : m.advisor.oracle = .stratified budget)
    {rules : List Rule} (hrules : parseProgram m.rules = .ok rules)
    (hlevels : ∃ levels, stratify rules = .ok levels)
    (hundetermined : m.solve.1.outcome = .undetermined) :
    ∃ rules', ∃ atoms : List Atom, parseProgram m.program.text = .ok rules' ∧ atoms.Nodup ∧
      IsAnswerSet rules' {a | a ∈ atoms} ∧ budget < atoms.length := by
  have hparse := h.parseProgram_of_ok hrules
  have hsafe := safe_of_parseProgram hparse
  obtain ⟨levels, hlevels⟩ := exists_stratify_programRules_iff.2 hlevels
  have hexceeded : evaluate budget (programRules m.facts rules) = .budgetExceeded := by
    rw [outcome_of_ok h horacle hrules] at hundetermined
    cases heval : evaluate budget (programRules m.facts rules) with
    | budgetExceeded => rfl
    | notStratifiable predicate => exact absurd heval (evaluate_ne_notStratifiable hlevels _ _)
    | model atoms => rw [heval] at hundetermined; cases hundetermined
    | constraintViolated line => rw [heval] at hundetermined; cases hundetermined
  obtain ⟨db, levels', hlevels', hdb, hlt⟩ := budget_lt_of_budgetExceeded hsafe hexceeded
  exact ⟨_, db.atoms, hparse, Database.nodup_atoms hdb.wellFormed, hdb.isAnswerSet hsafe hlevels',
    hlt⟩

/-- Rules without constraints that can be stratified have exactly one model, if the budget is
enough.  It is an answer set of the rules behind the facts. -/
theorem exists_models (h : m.Sound) (horacle : m.advisor.oracle = .stratified budget)
    {rules : List Rule} (hrules : parseProgram m.rules = .ok rules)
    (hlevels : ∃ levels, stratify rules = .ok levels) (hheads : ∀ r ∈ rules, r.head ≠ none)
    (hbudget : evaluate budget (programRules m.facts rules) ≠ .budgetExceeded) :
    ∃ atoms, m.solve.1.outcome = .models [.ofAtoms atoms] ∧
      IsAnswerSet (programRules m.facts rules) {a | a ∈ atoms} := by
  have hsafe := safe_of_parseProgram (h.parseProgram_of_ok hrules)
  obtain ⟨levels, hlevels⟩ := exists_stratify_programRules_iff.2 hlevels
  rw [outcome_of_ok h horacle hrules]
  cases heval : evaluate budget (programRules m.facts rules) with
  | model atoms => exact ⟨atoms, rfl, isAnswerSet_of_evaluate hsafe heval⟩
  | constraintViolated line =>
    obtain ⟨r, hr, hhead⟩ := exists_constraint_of_evaluate heval
    rcases List.mem_append.1 hr with hfact | hrule
    · obtain ⟨a, -, line, rfl⟩ := mem_factRules hfact
      cases hhead
    · obtain ⟨s, hs, rfl⟩ := List.mem_map.1 hrule
      exact absurd hhead (hheads s hs)
  | notStratifiable predicate => exact absurd heval (evaluate_ne_notStratifiable hlevels _ _)
  | budgetExceeded => exact absurd heval hbudget

theorem undetermined_of_not_stratifiable (h : m.Sound)
    (horacle : m.advisor.oracle = .stratified budget) {rules : List Rule}
    (hrules : parseProgram m.rules = .ok rules)
    (hlevels : ¬ ∃ levels, stratify rules = .ok levels) :
    m.solve.1.outcome = .undetermined := by
  rw [outcome_of_ok h horacle hrules]
  cases hstratify : stratify (programRules m.facts rules) with
  | ok levels => exact absurd (exists_stratify_programRules_iff.1 ⟨levels, hstratify⟩) hlevels
  | error predicate =>
    rw [evaluate, hstratify]
    rfl

end Monitor
end RightOfWay
