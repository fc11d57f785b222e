import RightOfWay.Command.CheckRules
import RightOfWay.Proofs.Arbitration.Calls
import RightOfWay.Proofs.Arbitration.Solving

/-!
# A check of the rules foretells the solves

`checkRules` looks at rules on their own, and a monitor evaluates them behind facts that nobody
knows yet.  The finding holds good all the same (`checkRules_foretells`): facts are always read as
facts, so that they neither repair nor spoil the rules, and having no bodies they neither close nor
open a cycle of negations.
-/

set_option autoImplicit false

namespace RightOfWay

/-! ## What a finding says -/

/-- The finding about rules that can be read. -/
theorem checkRules_of_ok {text : String} {rules : List Rule} (h : parseProgram text = .ok rules) :
    checkRules text =
      match evaluate standardBudget rules with
      | .model _ => .passed rules.length
      | .constraintViolated _ => .passed rules.length
      | .notStratifiable _ => .notEvaluable rules.length
      | .budgetExceeded => .notEvaluable rules.length := by
  rw [checkRules, h]
  dsimp only
  cases evaluate standardBudget rules <;> rfl

/-- The check fails exactly on rules that cannot be read. -/
theorem exists_error_of_exitCode {text : String} (h : (checkRules text).exitCode = 1) :
    ∃ e, parseProgram text = .error e := by
  cases hparse : parseProgram text with
  | error e => exact ⟨e, rfl⟩
  | ok rules =>
    rw [checkRules_of_ok hparse] at h
    split at h <;> cases h

/-- Rules that are found to be in order can be read and stratified. -/
theorem exists_stratify_of_passed {text : String} {n : Nat} (h : checkRules text = .passed n) :
    ∃ rules, parseProgram text = .ok rules ∧ ∃ levels, stratify rules = .ok levels := by
  cases hparse : parseProgram text with
  | error e =>
    rw [checkRules, hparse] at h
    cases h
  | ok rules =>
    refine ⟨rules, rfl, ?_⟩
    cases hlevels : stratify rules with
    | ok levels => exact ⟨levels, rfl⟩
    | error predicate =>
      rw [checkRules_of_ok hparse, evaluate, hlevels] at h
      cases h

/-- Rules that can be read but not stratified are left to other oracles. -/
theorem checkRules_of_not_stratifiable {text : String} {rules : List Rule}
    (hparse : parseProgram text = .ok rules) {predicate : String}
    (h : stratify rules = .error predicate) : checkRules text = .notEvaluable rules.length := by
  rw [checkRules_of_ok hparse, evaluate, h]

/-- Only a finding that the rules are in order is worded so. -/
theorem eq_passed_of_message {check : RuleCheck} {rest : String}
    (h : check.message = "OK: " ++ rest) : ∃ n, check = .passed n := by
  have hhead := congrArg (·.toList.head?) h
  cases check with
  | passed n => exact ⟨n, rfl⟩
  | notEvaluable n => simp [RuleCheck.message] at hhead
  | failed reason => simp [RuleCheck.message] at hhead

/-! ## Every solve -/

namespace Monitor

/-- No command has been accepted. -/
def Silent (m : Monitor) : Prop := m.controls.accepted = [] ∧ m.lastCommands = ∅

theorem Fresh.silent {m : Monitor} (h : m.Fresh) : m.Silent := by
  rw [Silent, h.controls, h.lastCommands]
  exact ⟨rfl, rfl⟩

theorem dispatch_of_failure (m : Monitor) {s : Solution} {f : Failure}
    (h : s.outcome = .failure f) : m.dispatch s = (.none, m) :=
  m.dispatch_of_selected_eq_none (by rw [h]; rfl)

/-- A monitor that acts on failures only accepts no commands. -/
theorem stable_silent {P : Monitor → Prop} (hP : Stable P)
    (hfails : ∀ m, P m → ∃ f, m.solve.1.outcome = .failure f) :
    Stable fun m ↦ P m ∧ m.Silent where
  attach m v h hm := ⟨hP.attach m v h hm.1, hm.2⟩
  record m e hm := ⟨hP.record m e hm.1, hm.2⟩
  forget m v hm := by
    refine ⟨hP.forget m v hm.1, hm.2.1, ?_⟩
    rw [forget, hm.2.2]
    simp
  setLane m _ _ _ _ _ hok hm := by
    refine ⟨hP.setLane _ _ _ _ _ _ hok hm.1, ?_⟩
    obtain ⟨-, rfl⟩ := setLane_eq_ok hok
    exact hm.2
  refresh m hm := ⟨hP.refresh m hm.1, hm.2⟩
  solve m hm := ⟨hP.solve m hm.1, hm.2⟩
  dispatch m m' hm hm' := by
    obtain ⟨f, hf⟩ := hfails m' hm'.1
    rw [m.dispatch_of_failure hf]
    exact hm

end Monitor

/-- **The check of the rules foretells the built-in oracle.**  Take a monitor that was given the
rules and the built-in oracle with any budget, and whatever happens to it.

* If the check exits with code 1, then every solution is a failure, acting on it does nothing, and
  no command is ever accepted.
* If the check exits with code 0 and says `OK`, then no solution is a failure, and one is
  undetermined only if the rules of its program have an answer set with more atoms than the budget
  allows.
* If the rules can be read but not stratified, then the check exits with code 0 and says `WARN`, and
  every solution is undetermined. -/
theorem checkRules_foretells {settings : Settings} {topology : Topology} {probe : Probe}
    {text : String} {budget : Nat} {clock : Nat → Stamp} {m₀ : Monitor}
    (hmake : Monitor.make settings topology probe text (.stratified budget) clock = .ok m₀)
    (actions : List Action) :
    let session := (Session.start m₀).run actions
    ((checkRules text).exitCode = 1 →
      (∀ solution ∈ session.solutions, (∃ failure, solution.outcome = .failure failure) ∧
        ∀ m : Monitor, m.dispatch solution = (.none, m)) ∧
      session.monitor.controls.accepted = [] ∧ session.monitor.lastCommands = ∅) ∧
    ((checkRules text).exitCode = 0 → (∃ rest, (checkRules text).message = "OK: " ++ rest) →
      ∀ solution ∈ session.solutions, (∀ failure, solution.outcome ≠ .failure failure) ∧
        (solution.outcome = .undetermined → ∃ rules, ∃ atoms : List Atom,
          parseProgram solution.program.text = .ok rules ∧ atoms.Nodup ∧
            IsAnswerSet rules {a | a ∈ atoms} ∧ budget < atoms.length)) ∧
    ∀ rules predicate, parseProgram text = .ok rules → stratify rules = .error predicate →
      (checkRules text).exitCode = 0 ∧ (∃ rest, (checkRules text).message = "WARN: " ++ rest) ∧
        ∀ solution ∈ session.solutions, solution.outcome = .undetermined := by
  obtain ⟨hfresh, hrules, horacle, -⟩ := Monitor.of_make hmake
  have hwithin := Session.within_run (Monitor.stable_follows m₀) hfresh.follows actions
  refine ⟨fun hcode ↦ ?_, fun _ ⟨rest, hmessage⟩ solution hsolution ↦ ?_,
    fun rules predicate hparse hlevels ↦ ⟨?_, ?_, fun solution hsolution ↦ ?_⟩⟩
  · obtain ⟨e, he⟩ := exists_error_of_exitCode hcode
    have hfails : ∀ m, m₀.Follows m → ∃ f, m.solve.1.outcome = .failure f := fun m hm ↦
      ⟨_, Monitor.outcome_of_error hm.1 (hm.2.oracle.trans horacle)
        (by rw [hm.2.rules, hrules]; exact he)⟩
    refine ⟨fun solution hsolution ↦ ?_, ?_⟩
    · obtain ⟨m, hm, rfl⟩ := hwithin.solutions solution hsolution
      obtain ⟨f, hf⟩ := hfails m hm
      exact ⟨⟨f, hf⟩, fun m' ↦ m'.dispatch_of_failure hf⟩
    · exact (Session.within_run (Monitor.stable_silent (Monitor.stable_follows m₀) hfails)
        ⟨hfresh.follows, hfresh.silent⟩ actions).monitor.2
  · obtain ⟨n, hpassed⟩ := eq_passed_of_message hmessage
    obtain ⟨rules, hparse, hlevels⟩ := exists_stratify_of_passed hpassed
    obtain ⟨m, hm, rfl⟩ := hwithin.solutions solution hsolution
    have horacle' := hm.2.oracle.trans horacle
    rw [← hrules, ← hm.2.rules] at hparse
    exact ⟨Monitor.outcome_ne_failure hm.1 horacle' hparse,
      Monitor.budget_lt_of_undetermined hm.1 horacle' hparse hlevels⟩
  · rw [checkRules_of_not_stratifiable hparse hlevels]
    rfl
  · rw [checkRules_of_not_stratifiable hparse hlevels, RuleCheck.message, String.append_assoc]
    exact ⟨_, rfl⟩
  · obtain ⟨m, hm, rfl⟩ := hwithin.solutions solution hsolution
    rw [← hrules, ← hm.2.rules] at hparse
    refine Monitor.undetermined_of_not_stratifiable hm.1 (hm.2.oracle.trans horacle) hparse ?_
    rintro ⟨levels, hok⟩
    cases hlevels.symm.trans hok

/-- An unsafe rule, a fact, and a rule through its own negation, each put to one solve. -/
theorem checkRules_foretells_three :
    let make (text : String) : Except InvalidValue Monitor :=
      Monitor.make .standard .empty (fun _ _ ↦ false) text (.stratified standardBudget)
        fun _ ↦ .ofText ""
    (∃ m₀ solution, make "go(X)." = .ok m₀ ∧
      ((Session.start m₀).run [.solve]).solutions = [solution] ∧
      ∃ failure, solution.outcome = .failure failure) ∧
    (∃ m₀ solution, make "go(a)." = .ok m₀ ∧
      ((Session.start m₀).run [.solve]).solutions = [solution] ∧
      ∀ failure, solution.outcome ≠ .failure failure) ∧
    ∃ m₀ solution, make "go :- not go." = .ok m₀ ∧
      ((Session.start m₀).run [.solve]).solutions = [solution] ∧
      solution.outcome = .undetermined := by
  have hmake := fun text ↦ Monitor.exists_make_standard .empty (fun _ _ ↦ false) text
    (.stratified standardBudget) fun _ ↦ .ofText ""
  have hmem : ∀ m₀ : Monitor, m₀.solve.1 ∈ ((Session.start m₀).run [.solve]).solutions :=
    fun _ ↦ List.mem_singleton_self _
  refine ⟨?_, ?_, ?_⟩
  · obtain ⟨m₀, hm₀⟩ := hmake "go(X)."
    have hfails := (checkRules_foretells hm₀ [.solve]).1 (by decide +kernel)
    exact ⟨m₀, _, hm₀, rfl, (hfails.1 _ (hmem m₀)).1⟩
  · obtain ⟨m₀, hm₀⟩ := hmake "go(a)."
    have hpasses := (checkRules_foretells hm₀ [.solve]).2.1 (by decide +kernel)
      ⟨"1 rule(s)", by decide +kernel⟩
    exact ⟨m₀, _, hm₀, rfl, (hpasses _ (hmem m₀)).1⟩
  · obtain ⟨m₀, hm₀⟩ := hmake "go :- not go."
    have hparse : parseProgram "go :- not go." =
        .ok [⟨some ⟨"go", []⟩, [.neg ⟨"go", []⟩], 1⟩] := by decide +kernel
    have hcycle : ¬ (stratify [⟨some ⟨"go", []⟩, [.neg ⟨"go", []⟩], 1⟩]).isOk = true := by
      decide +kernel
    cases hstratify : stratify [⟨some ⟨"go", []⟩, [.neg ⟨"go", []⟩], 1⟩] with
    | ok levels =>
      rw [hstratify] at hcycle
      exact absurd rfl hcycle
    | error predicate =>
      have hwarns := (checkRules_foretells hm₀ [.solve]).2.2 _ predicate hparse hstratify
      exact ⟨m₀, _, hm₀, rfl, hwarns.2.2 _ (hmem m₀)⟩

end RightOfWay
