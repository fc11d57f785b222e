import RightOfWay.Proofs.Arbitration.EventLog
import RightOfWay.Proofs.Arbitration.Verdicts

/-!
# Departed vehicles

A departure removes a vehicle from three places: the ledger, the handles and the commands accepted
last (`Monitor.Lacks`).  Nothing brings it back but a handle for it or an event of it
(`Action.Admits`), and in particular no old solution does, since commands are issued to vehicles
with handles only (`Session.lacks_act`).  Until then no program has facts about the vehicle, and
the verdicts on it are skipped (`departed_of_session`).
-/

set_option autoImplicit false

namespace RightOfWay

/-- The call attaches a handle for the vehicle, or brings an event of it that is no departure. -/
def Action.Admits (v : VehicleId) : Action → Prop
  | .attach w _ => w = v
  | .event e => e.vehicle = v ∧ ¬ e.isDeparture = true
  | _ => False

/-- The vehicle is not in the ledger, it has no handle, and no command of it is kept. -/
structure Monitor.Lacks (v : VehicleId) (m : Monitor) : Prop where
  ledger : m.ledger.contains v = false
  controls : m.controls.contains v = false
  lastCommands : m.lastCommands[v]? = none

variable {v : VehicleId}

theorem Ledger.contains_follow (l : Ledger) (r : Resolution) (e : Event) (v : VehicleId) :
    (l.follow r e).contains v = if e.vehicle = v then !e.isDeparture else l.contains v := by
  rw [contains_eq_isSome, contains_eq_isSome, follow]
  cases e.isDeparture with
  | true =>
    rw [if_pos rfl, getElem?_evict]
    split <;> rfl
  | false =>
    rw [if_neg Bool.false_ne_true, getElem?_observeEvent]
    split <;> rfl

namespace Monitor

variable {m : Monitor}

theorem lacks_forget (m : Monitor) (v : VehicleId) : (m.forget v).Lacks v where
  ledger := by simp [forget, Ledger.evict, Ledger.contains]
  controls := by simp [forget, Controls.contains_detach]
  lastCommands := by simp [forget]

/-- No solution has a command issued to a vehicle that the monitor lacks. -/
theorem Lacks.notMem_issued (h : m.Lacks v) (s : Solution) (command : Command) :
    (v, command) ∉ (m.dispatch s).1.issued := by
  intro hissued
  have hcontains := (m.accepted_dispatch s).2 _ hissued
  rw [h.controls] at hcontains
  cases hcontains

theorem Lacks.commandFor_eq_none (h : m.Lacks v) (s : Solution) :
    (m.dispatch s).1.commandFor v = none :=
  Option.eq_none_iff_forall_not_mem.2 fun command hcommand ↦
    h.notMem_issued s command (Dispatch.mem_issued_of_commandFor hcommand)

end Monitor

namespace Session

variable {s : Session} {a : Action}

theorem lacks_departure (s : Session) (v : VehicleId) :
    (s.act (.event (.departure v))).monitor.Lacks v :=
  s.monitor.lacks_forget v

theorem contains_ledger_act (hs : s.monitor.ledger.contains v = false) (ha : ¬ a.Admits v) :
    (s.act a).monitor.ledger.contains v = false := by
  rw [s.ledger_act]
  cases a with
  | event e =>
    show (s.monitor.ledger.follow s.monitor.resolution e).contains v = false
    rw [Ledger.contains_follow]
    by_cases hv : e.vehicle = v
    · rw [if_pos hv, Bool.not_eq_false']
      exact not_not.1 fun hdeparture ↦ ha ⟨hv, hdeparture⟩
    · rw [if_neg hv]
      exact hs
  | attach | setLane | geometry | solve | dispatch => exact hs

/-- A vehicle without a handle gets no command.  The solution that is acted on may be older than
its departure: what counts is that there is no handle now. -/
theorem lacks_act_of_acted (hs : s.monitor.Lacks v) (ha : ¬ a.Admits v)
    {acted : Solution × Dispatch} (h : s.acted? a = some acted) :
    (s.act a).monitor.Lacks v := by
  obtain ⟨-, hcontrols, hcommands⟩ := act_of_acted h
  refine ⟨contains_ledger_act hs.ledger ha, ?_, ?_⟩
  · rw [hcontrols, Monitor.contains_dispatch]
    exact hs.controls
  · rw [hcommands, Monitor.lastCommands_dispatch, hs.commandFor_eq_none]
    exact hs.lastCommands

theorem lacks_act_of_not_acted (hs : s.monitor.Lacks v) (ha : ¬ a.Admits v)
    (h : s.acted? a = none) : (s.act a).monitor.Lacks v := by
  have hledger := contains_ledger_act hs.ledger ha
  have hact := act_of_not_acted h
  cases a with
  | attach w handle =>
    obtain ⟨hcontrols, hcommands⟩ := hact
    refine ⟨hledger, ?_, ?_⟩
    · rw [hcontrols, Controls.contains_attach, if_neg (show w ≠ v from ha)]
      exact hs.controls
    · rw [hcommands]
      exact hs.lastCommands
  | event e =>
    obtain ⟨-, hcontrols, hcommands⟩ := hact
    refine ⟨hledger, ?_, ?_⟩
    · rw [hcontrols, Controls.contains_detach, hs.controls, ite_self]
    · rw [hcommands, Std.ExtTreeMap.getElem?_erase, hs.lastCommands, ite_self]
  | setLane | geometry | solve | dispatch =>
    exact ⟨hledger, hact.1 ▸ hs.controls, hact.2 ▸ hs.lastCommands⟩

/-- A vehicle that the monitor lacks comes back by a call that admits it only. -/
theorem lacks_act (hs : s.monitor.Lacks v) (ha : ¬ a.Admits v) : (s.act a).monitor.Lacks v := by
  cases hacted : s.acted? a with
  | some acted => exact lacks_act_of_acted hs ha hacted
  | none => exact lacks_act_of_not_acted hs ha hacted

theorem lacks_run (hs : s.monitor.Lacks v) {actions : List Action}
    (hactions : ∀ a ∈ actions, ¬ a.Admits v) : (s.run actions).monitor.Lacks v := by
  induction actions generalizing s with
  | nil => exact hs
  | cons a actions ih =>
    obtain ⟨ha, hactions⟩ := List.forall_mem_cons.1 hactions
    exact ih (lacks_act hs ha) hactions

end Session

/-- **A departed vehicle is gone until it is admitted again.**  Whatever is called before the
departure, and whatever but a handle for the vehicle or an event of it is called afterwards:

* the vehicle is not in the ledger, it has no handle, and no command of it is kept,
* no fact in the ledger is about the vehicle, and no fact in the first section of the next program
  that is solved is, and
* whichever solution is acted on next, however old, no command is issued to the vehicle.  If the
  model says that it is to stop, this is skipped because there is no handle.  If the model says that
  it may go, this is skipped for the same reason, or because it is to stop as well.  Nothing else
  is skipped for the vehicle. -/
theorem departed_of_session {settings : Settings} {topology : Topology} {probe : Probe}
    {rules : String} {oracle : Oracle} {clock : Nat → Stamp} {m₀ : Monitor}
    (hmake : Monitor.make settings topology probe rules oracle clock = .ok m₀)
    (solutions : List Solution) (before after : List Action)
    (hafter : ∀ a ∈ after, ¬ a.Admits v) :
    let s := Session.run ⟨m₀, solutions⟩ (before ++ .event (.departure v) :: after)
    s.monitor.ledger.contains v = false ∧ s.monitor.controls.contains v = false ∧
      s.monitor.lastCommands[v]? = none ∧
      (∀ fact ∈ s.monitor.ledger.facts, fact.args.head? ≠ some (.symbol v.constant)) ∧
      ∀ a : Action, ¬ a.Admits v →
        (∀ solution, s.solved? a = some solution → ∃ facts : List Atom,
          solution.program =
            .assemble (renderFacts facts) s.monitor.geometry.text s.monitor.rules ∧
          ∀ fact ∈ facts, fact.args.head? ≠ some (.symbol v.constant)) ∧
        ∀ solution report, s.acted? a = some (solution, report) →
          (∀ command, (v, command) ∉ report.issued) ∧
          ∀ model, solution.outcome.selected = some model →
            (report.skipped.filter fun skip ↦ skip.vehicle? = some v) =
              (if ⟨stopPredicate, [.symbol v.constant]⟩ ∈ model then [.unresolved v .stop]
                else []) ++
              if ⟨goPredicate, [.symbol v.constant]⟩ ∈ model then
                [if ⟨stopPredicate, [.symbol v.constant]⟩ ∈ model then .conflicting v
                  else .unresolved v .go]
              else [] := by
  intro s
  have hlacks : s.monitor.Lacks v := by
    have hrun := Session.lacks_run
      ((Session.run ⟨m₀, solutions⟩ before).lacks_departure v) hafter
    rwa [← Session.run_cons, ← Session.run_append] at hrun
  have hfacts : ∀ actions, let m := (Session.run ⟨m₀, solutions⟩ actions).monitor
      m.ledger.contains v = false →
        ∀ fact ∈ m.ledger.facts, fact.args.head? ≠ some (.symbol v.constant) := by
    intro actions m hledger fact hfact hhead
    obtain ⟨w, hw, hhead'⟩ :=
      ((Monitor.of_make hmake).1.logs_run solutions actions).exists_of_mem_facts hfact
    rw [hhead] at hhead'
    obtain rfl := Ident.constant_injective (Term.symbol.inj (Option.some.inj hhead'))
    rw [hledger] at hw
    cases hw
  refine ⟨hlacks.ledger, hlacks.controls, hlacks.lastCommands, hfacts _ hlacks.ledger,
    fun a ha ↦ ⟨fun solution hsolved ↦ ⟨_, Session.program_of_solved hsolved, ?_⟩,
      fun solution report hacted ↦ ?_⟩⟩
  · have hnext := hfacts (before ++ .event (.departure v) :: after ++ [a])
    rw [Session.run_append] at hnext
    exact hnext (Session.lacks_act hlacks ha).ledger
  · obtain ⟨rfl, -, -⟩ := Session.act_of_acted hacted
    refine ⟨hlacks.notMem_issued solution, fun model hmodel ↦ ?_⟩
    rw [Monitor.report_of_selected _ hmodel]
    exact Controls.filter_skipped_dispatch _ _ hlacks.controls

/-- An old solution tells a car both things after the car has left. -/
theorem departed_of_session_late :
    ∃ (m₀ : Monitor) (car : VehicleId) (solution : Solution) (report : Dispatch),
      let s := Session.run ⟨m₀, [solution]⟩
        [.attach car .obeying, .dispatch 0, .event (.departure car), .solve]
      Monitor.make .standard .empty (fun _ _ ↦ false) "" (.stratified standardBudget)
          (fun _ ↦ .ofText "") = .ok m₀ ∧
        s.monitor.controls.contains car = false ∧
        s.acted? (.dispatch 0) = some (solution, report) ∧
        (report.skipped.filter fun skip ↦ skip.vehicle? = some car) =
          [.unresolved car .stop, .conflicting car] := by
  obtain ⟨m₀, hmake⟩ := Monitor.exists_make_standard .empty (fun _ _ ↦ false) ""
    (.stratified standardBudget) fun _ ↦ .ofText ""
  let car : VehicleId := ⟨"car", by decide⟩
  let model : Model :=
    .ofAtoms [⟨stopPredicate, [.symbol car.constant]⟩, ⟨goPredicate, [.symbol car.constant]⟩]
  let solution : Solution := ⟨1, ⟨""⟩, .models [model]⟩
  obtain ⟨-, hcontains, -, -, hnext⟩ := departed_of_session (v := car) hmake [solution]
    [.attach car .obeying, .dispatch 0] [.solve] (by simp [Action.Admits])
  obtain ⟨-, hacted⟩ := hnext (.dispatch 0) (by simp [Action.Admits])
  refine ⟨m₀, car, solution, _, hmake, hcontains, rfl, ?_⟩
  have hskipped := (hacted solution _ rfl).2 model rfl
  simpa [model] using hskipped

end RightOfWay
