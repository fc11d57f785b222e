import RightOfWay.Proofs.Arbitration.Session

/-!
# Calls

What one call to a monitor gives, and what it changes.

* `Session.solved?` is the solution that a call gives, and `Session.acted?` the solution that it
  acts on, with what becomes of the verdicts in it.
* Handles and commands apart, a call does to a monitor what `Monitor.watch` says
  (`Session.exists_act_eq`).
* Handles and commands change where a solution is acted on (`Session.act_of_acted`), and else only
  where a handle is attached or a vehicle departs (`Session.act_of_not_acted`).
-/

set_option autoImplicit false

namespace RightOfWay

namespace Monitor

variable {s : Solution} {model : Model}

theorem dispatch_of_selected_eq_none (m : Monitor) (h : s.outcome.selected = none) :
    m.dispatch s = (.none, m) := by
  rw [dispatch, h]

theorem dispatch_of_selected (m : Monitor) (h : s.outcome.selected = some model) :
    m.dispatch s = ((m.controls.dispatch model).1,
      { m with
        controls := (m.controls.dispatch model).2
        lastCommands := (m.controls.dispatch model).1.issued.foldl
          (fun cs (v, c) ↦ cs.insert v c) m.lastCommands }) := by
  rw [dispatch, h]

theorem report_of_selected (m : Monitor) (h : s.outcome.selected = some model) :
    (m.dispatch s).1 = (m.controls.dispatch model).1 := by
  rw [m.dispatch_of_selected h]

/-- What becomes of a solution depends on handles and commands only. -/
theorem dispatch_congr (m m' : Monitor) (hcontrols : m'.controls = m.controls)
    (hcommands : m'.lastCommands = m.lastCommands) (s : Solution) :
    (m'.dispatch s).1 = (m.dispatch s).1 ∧
      (m'.dispatch s).2.controls = (m.dispatch s).2.controls ∧
      (m'.dispatch s).2.lastCommands = (m.dispatch s).2.lastCommands := by
  cases h : s.outcome.selected with
  | none =>
    rw [m.dispatch_of_selected_eq_none h, m'.dispatch_of_selected_eq_none h]
    exact ⟨rfl, hcontrols, hcommands⟩
  | some model =>
    rw [m.dispatch_of_selected h, m'.dispatch_of_selected h, hcontrols, hcommands]
    exact ⟨rfl, rfl, rfl⟩

/-- The monitor after a call, with the handles and commands that it had before. -/
def watch (m : Monitor) : Action → Monitor
  | .attach .. => m
  | .event e =>
    if e.isDeparture then { m with ledger := m.ledger.evict e.vehicle } else (m.record e).solve.2
  | .setLane fork exit active =>
    match m.topology.setLane fork exit active with
    | .error _ => m
    | .ok change => { m with topology := change.topology }
  | .geometry => m.refresh
  | .solve => m.solve.2
  | .dispatch _ => m

end Monitor

namespace Session

/-- The solution that a call gives: that of a solve, or that of the turn of an event. -/
def solved? (s : Session) : Action → Option Solution
  | .event e => (s.monitor.handle e).1.map Cycle.solution
  | .solve => some s.monitor.solve.1
  | _ => none

/-- The solution that a call acts on, with what becomes of the verdicts in it. -/
def acted? (s : Session) : Action → Option (Solution × Dispatch)
  | .event e => (s.monitor.handle e).1.map fun cycle ↦ (cycle.solution, cycle.dispatch)
  | .dispatch number =>
    s.solutions[number]?.map fun solution ↦ (solution, (s.monitor.dispatch solution).1)
  | _ => none

variable {s : Session} {a : Action} {solution : Solution} {report : Dispatch}

theorem solved_turn (s : Session) {e : Event} (he : ¬ e.isDeparture = true) :
    s.solved? (.event e) = some (s.monitor.record e).solve.1 := by
  rw [solved?, s.monitor.handle_turn he]
  rfl

theorem solved_departure (s : Session) {e : Event} (he : e.isDeparture = true) :
    s.solved? (.event e) = none := by
  rw [solved?, s.monitor.handle_departure he]
  rfl

theorem acted_turn (s : Session) {e : Event} (he : ¬ e.isDeparture = true) :
    s.acted? (.event e) = some ((s.monitor.record e).solve.1,
      ((s.monitor.record e).solve.2.dispatch (s.monitor.record e).solve.1).1) := by
  rw [acted?, s.monitor.handle_turn he]
  rfl

theorem acted_departure (s : Session) {e : Event} (he : e.isDeparture = true) :
    s.acted? (.event e) = none := by
  rw [acted?, s.monitor.handle_departure he]
  rfl

/-- Handles and commands apart, a call does what `Monitor.watch` says. -/
theorem exists_act_eq (s : Session) (a : Action) :
    ∃ controls lastCommands,
      (s.act a).monitor = { s.monitor.watch a with controls, lastCommands } := by
  cases a with
  | attach v h => exact ⟨_, s.monitor.lastCommands, rfl⟩
  | event e =>
    by_cases he : e.isDeparture = true
    · rw [s.act_departure he, Monitor.watch, if_pos he]
      exact ⟨_, _, rfl⟩
    · rw [s.act_turn he, Monitor.watch, if_neg he]
      exact Monitor.dispatch_eq _ _
  | setLane fork exit active =>
    rw [act, Monitor.watch, Monitor.setLane]
    cases s.monitor.topology.setLane fork exit active with
    | error e => exact ⟨s.monitor.controls, s.monitor.lastCommands, rfl⟩
    | ok change => exact ⟨s.monitor.controls, s.monitor.lastCommands, rfl⟩
  | geometry => exact ⟨s.monitor.controls, s.monitor.lastCommands, rfl⟩
  | solve => exact ⟨s.monitor.controls, s.monitor.lastCommands, rfl⟩
  | dispatch number =>
    rw [act]
    split
    · exact ⟨s.monitor.controls, s.monitor.lastCommands, rfl⟩
    · exact Monitor.dispatch_eq _ _

theorem resolution_act (s : Session) (a : Action) :
    (s.act a).monitor.resolution = s.monitor.resolution := by
  obtain ⟨_, _, heq⟩ := s.exists_act_eq a
  rw [heq]
  cases a with
  | event e =>
    dsimp only [Monitor.watch]
    split <;> rfl
  | setLane fork exit active =>
    dsimp only [Monitor.watch]
    split <;> rfl
  | attach | geometry | solve | dispatch => rfl

theorem resolution_run (s : Session) (actions : List Action) :
    (s.run actions).monitor.resolution = s.monitor.resolution := by
  induction actions generalizing s with
  | nil => rfl
  | cons a actions ih => rw [run_cons, ih, resolution_act]

/-- A solution comes from the program of the state that the call leaves behind. -/
theorem program_of_solved (h : s.solved? a = some solution) :
    solution.program = .assemble (s.act a).monitor.ledger.text s.monitor.geometry.text
      s.monitor.rules := by
  cases a with
  | event e =>
    by_cases he : e.isDeparture = true
    · rw [s.solved_departure he] at h
      cases h
    · rw [s.solved_turn he] at h
      obtain rfl := Option.some.inj h
      obtain ⟨_, _, heq⟩ := (s.monitor.record e).solve.2.dispatch_eq (s.monitor.record e).solve.1
      rw [s.act_turn he, heq]
      rfl
  | solve =>
    cases h
    rfl
  | attach | setLane | geometry | dispatch => cases h

/-- A call that acts on a solution does to handles and commands what this does on its own. -/
theorem act_of_acted (h : s.acted? a = some (solution, report)) :
    report = (s.monitor.dispatch solution).1 ∧
      (s.act a).monitor.controls = (s.monitor.dispatch solution).2.controls ∧
      (s.act a).monitor.lastCommands = (s.monitor.dispatch solution).2.lastCommands := by
  cases a with
  | event e =>
    by_cases he : e.isDeparture = true
    · rw [s.acted_departure he] at h
      cases h
    · rw [s.acted_turn he] at h
      obtain ⟨rfl, rfl⟩ := Prod.mk.inj (Option.some.inj h)
      obtain ⟨hreport, hcontrols, hcommands⟩ :=
        s.monitor.dispatch_congr (s.monitor.record e).solve.2 rfl rfl
          (s.monitor.record e).solve.1
      rw [s.act_turn he]
      exact ⟨hreport, hcontrols, hcommands⟩
  | dispatch number =>
    rw [act]
    rw [acted?] at h
    cases hsolution : s.solutions[number]? with
    | none =>
      rw [hsolution] at h
      cases h
    | some solution =>
      rw [hsolution] at h
      cases h
      exact ⟨rfl, rfl, rfl⟩
  | attach | setLane | geometry | solve => cases h

/-- Where no solution is acted on, only a handle that is attached and a departure change handles
and commands. -/
theorem act_of_not_acted (h : s.acted? a = none) :
    match a with
    | .attach v handle => (s.act a).monitor.controls = s.monitor.controls.attach v handle ∧
        (s.act a).monitor.lastCommands = s.monitor.lastCommands
    | .event e => e.isDeparture = true ∧
        (s.act a).monitor.controls = s.monitor.controls.detach e.vehicle ∧
        (s.act a).monitor.lastCommands = s.monitor.lastCommands.erase e.vehicle
    | _ => (s.act a).monitor.controls = s.monitor.controls ∧
        (s.act a).monitor.lastCommands = s.monitor.lastCommands := by
  cases a with
  | attach v handle => exact ⟨rfl, rfl⟩
  | event e =>
    by_cases he : e.isDeparture = true
    · dsimp only
      rw [s.act_departure he]
      exact ⟨he, rfl, rfl⟩
    · rw [s.acted_turn he] at h
      cases h
  | setLane fork exit active =>
    dsimp only
    rw [act, Monitor.setLane]
    cases s.monitor.topology.setLane fork exit active with
    | error e => exact ⟨rfl, rfl⟩
    | ok change => exact ⟨rfl, rfl⟩
  | geometry => exact ⟨rfl, rfl⟩
  | solve => exact ⟨rfl, rfl⟩
  | dispatch number =>
    dsimp only
    rw [act]
    rw [acted?, Option.map_eq_none_iff] at h
    rw [h]
    exact ⟨rfl, rfl⟩

end Session
end RightOfWay
