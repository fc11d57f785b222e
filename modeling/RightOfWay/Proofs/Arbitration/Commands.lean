import RightOfWay.Proofs.Arbitration.EventLog
import RightOfWay.Proofs.Arbitration.Verdicts

/-!
# The commands accepted last

The map of the commands accepted last forgets vehicles that depart, and it is written to by every
solution that is acted on.  Here it is read off a log of what can be seen from outside: the commands
that handles accept, and the departures (`Session.log`).

* `Log.latest v` is the last command that a handle of the vehicle has accepted since the last
  departure of the vehicle.
* Every call keeps the map and the log in step, and it keeps a handle for every vehicle in the map
  (`Session.Replays.act_of_acted`, `Session.Replays.act_of_not_acted`), so that both hold in every
  state (`lastCommands_of_session`).
-/

set_option autoImplicit false

namespace RightOfWay

/-- What can be seen of a session from outside. -/
inductive LogEntry where
  /-- A handle of the vehicle has accepted the command. -/
  | accepted (vehicle : VehicleId) (command : Command)
  | departed (vehicle : VehicleId)
  deriving DecidableEq

namespace LogEntry

/-- The command that the vehicle has accepted, if the entry says so. -/
def commandTo? (v : VehicleId) : LogEntry → Option Command
  | accepted w command => if w = v then some command else none
  | departed _ => none

end LogEntry

/-! ## Logs -/

namespace Log

variable {v : VehicleId}

/-- The last command that the vehicle has accepted since its last departure. -/
def latest (v : VehicleId) (log : List LogEntry) : Option Command :=
  ((log.rtakeWhile fun entry ↦ entry ≠ .departed v).filterMap (LogEntry.commandTo? v)).getLast?

theorem latest_concat_accepted (log : List LogEntry) (w : VehicleId) (command : Command) :
    latest v (log ++ [.accepted w command]) = if w = v then some command else latest v log := by
  rw [latest, List.rtakeWhile_concat_pos _ _ _ (by simp), List.filterMap_append]
  by_cases hw : w = v
  · simp [LogEntry.commandTo?, hw]
  · simp [LogEntry.commandTo?, hw, latest]

theorem latest_concat_departed (log : List LogEntry) (w : VehicleId) :
    latest v (log ++ [.departed w]) = if w = v then none else latest v log := by
  rw [latest]
  by_cases hw : w = v
  · rw [List.rtakeWhile_concat_neg _ _ _ (by simp [hw]), if_pos hw]
    rfl
  · rw [List.rtakeWhile_concat_pos _ _ _ (by simp [hw]), if_neg hw, List.filterMap_append]
    simp [LogEntry.commandTo?, latest]

/-- The commands of a report take the place of earlier ones. -/
theorem latest_append_issued (log : List LogEntry) (report : Dispatch) :
    latest v (log ++ report.issued.map fun (w, command) ↦ .accepted w command) =
      (report.commandFor v).or (latest v log) := by
  obtain ⟨issued, skipped⟩ := report
  rw [Dispatch.commandFor]
  induction issued using List.reverseRecOn with
  | nil => simp
  | append_singleton issued order ih =>
    rw [List.map_append, ← List.append_assoc, List.map_singleton, latest_concat_accepted]
    by_cases hw : order.1 = v
    · simp [hw]
    · simpa [hw] using ih

end Log

namespace Session

variable {s : Session} {a : Action} {earlier : List LogEntry} {solution : Solution}
  {report : Dispatch}

/-- What a call adds to the log: the commands that are accepted in it, and a departure. -/
def entries (s : Session) (a : Action) : List LogEntry :=
  ((s.act a).monitor.controls.accepted.drop s.monitor.controls.accepted.length).map
      (fun (v, command) ↦ .accepted v command) ++
    (a.event?.filter Event.isDeparture).toList.map fun e ↦ .departed e.vehicle

/-- The log of a session. -/
def log : Session → List Action → List LogEntry
  | _, [] => []
  | s, a :: actions => s.entries a ++ (s.act a).log actions

theorem entries_of_acted (h : s.acted? a = some (solution, report)) :
    s.entries a = report.issued.map fun (v, command) ↦ .accepted v command := by
  obtain ⟨rfl, hcontrols, -⟩ := act_of_acted h
  have hevent : a.event?.filter Event.isDeparture = none := by
    cases a with
    | event e =>
      by_cases he : e.isDeparture = true
      · rw [s.acted_departure he] at h
        cases h
      · exact if_neg he
    | attach | setLane | geometry | solve | dispatch => rfl
  rw [entries, hcontrols, (s.monitor.accepted_dispatch solution).1, List.drop_left, hevent]
  exact List.append_nil _

/-- Where no solution is acted on, no command is accepted. -/
theorem entries_of_not_acted (h : s.acted? a = none) :
    s.entries a =
      (a.event?.filter Event.isDeparture).toList.map fun e ↦ .departed e.vehicle := by
  have haccepted : (s.act a).monitor.controls.accepted = s.monitor.controls.accepted := by
    have hact := act_of_not_acted h
    cases a with
    | attach v handle => exact (congrArg Controls.accepted hact.1).trans rfl
    | event e => exact (congrArg Controls.accepted hact.2.1).trans rfl
    | setLane | geometry | solve | dispatch => exact congrArg Controls.accepted hact.1
  rw [entries, haccepted, List.drop_length]
  rfl

/-- The commands accepted last are those in the log, and they are commands of vehicles with
handles. -/
structure Replays (log : List LogEntry) (m : Monitor) : Prop where
  lastCommands : ∀ v, m.lastCommands[v]? = Log.latest v log
  handles : ∀ v, m.lastCommands[v]? ≠ none → m.controls.contains v = true

namespace Replays

theorem act_of_acted (hs : Replays earlier s.monitor) (h : s.acted? a = some (solution, report)) :
    Replays (earlier ++ s.entries a) (s.act a).monitor := by
  obtain ⟨rfl, hcontrols, hcommands⟩ := Session.act_of_acted h
  rw [entries_of_acted h]
  refine ⟨fun v ↦ ?_, fun v hv ↦ ?_⟩
  · rw [hcommands, Monitor.lastCommands_dispatch, Log.latest_append_issued, hs.lastCommands]
  · rw [hcontrols, Monitor.contains_dispatch]
    rw [hcommands, Monitor.lastCommands_dispatch] at hv
    -- A vehicle that gets a command has a handle, and one that keeps a command had one before.
    cases hcommand : (s.monitor.dispatch solution).1.commandFor v with
    | none =>
      rw [hcommand] at hv
      exact hs.handles v hv
    | some command =>
      exact (s.monitor.accepted_dispatch solution).2 _ (Dispatch.mem_issued_of_commandFor hcommand)

/-- Without a new entry, commands stay as they are and no handle may go. -/
theorem congr {m m' : Monitor} (hs : Replays earlier m)
    (hcommands : m'.lastCommands = m.lastCommands)
    (hhandles : ∀ v, m.controls.contains v = true → m'.controls.contains v = true) :
    Replays earlier m' where
  lastCommands v := by rw [hcommands, hs.lastCommands]
  handles v hv := hhandles v (hs.handles v (hcommands ▸ hv))

/-- A departure takes the handle and the command of its vehicle along. -/
theorem departed {m m' : Monitor} {w : VehicleId} (hs : Replays earlier m)
    (hcontrols : m'.controls = m.controls.detach w)
    (hcommands : m'.lastCommands = m.lastCommands.erase w) :
    Replays (earlier ++ [.departed w]) m' := by
  have herase : ∀ v, m'.lastCommands[v]? = if w = v then none else m.lastCommands[v]? := by
    intro v
    rw [hcommands]
    simp only [Std.ExtTreeMap.getElem?_erase, Std.LawfulEqCmp.compare_eq_iff_eq]
  refine ⟨fun v ↦ ?_, fun v hv ↦ ?_⟩
  · rw [herase, Log.latest_concat_departed, hs.lastCommands]
  · rw [herase] at hv
    by_cases hvehicle : w = v
    · rw [if_pos hvehicle] at hv
      exact absurd rfl hv
    · rw [if_neg hvehicle] at hv
      rw [hcontrols, Controls.contains_detach, if_neg hvehicle]
      exact hs.handles v hv

theorem act_of_not_acted (hs : Replays earlier s.monitor) (h : s.acted? a = none) :
    Replays (earlier ++ s.entries a) (s.act a).monitor := by
  rw [entries_of_not_acted h]
  have hact := Session.act_of_not_acted h
  cases a with
  | attach w handle =>
    obtain ⟨hcontrols, hcommands⟩ := hact
    refine (List.append_nil earlier).symm ▸ hs.congr hcommands fun v hv ↦ ?_
    rw [hcontrols, Controls.contains_attach, hv, ite_self]
  | event e =>
    obtain ⟨hdeparture, hcontrols, hcommands⟩ := hact
    have hentries : (Option.filter Event.isDeparture (Action.event e).event?).toList = [e] := by
      simp [Action.event?, hdeparture]
    rw [hentries, List.map_singleton]
    exact hs.departed hcontrols hcommands
  | setLane | geometry | solve | dispatch =>
    exact (List.append_nil earlier).symm ▸ hs.congr hact.2 fun v hv ↦ hact.1 ▸ hv

theorem run (hs : Replays earlier s.monitor) (actions : List Action) :
    Replays (earlier ++ s.log actions) (s.run actions).monitor := by
  induction actions generalizing s earlier with
  | nil => simpa [log] using hs
  | cons a actions ih =>
    have hact : Replays (earlier ++ s.entries a) (s.act a).monitor := by
      cases hacted : s.acted? a with
      | none => exact hs.act_of_not_acted hacted
      | some acted => exact hs.act_of_acted hacted
    rw [log, ← List.append_assoc]
    exact ih hact

end Replays
end Session

/-- **The commands accepted last are those in the log.**  Whatever is called in a session, whatever
the oracle answers, and whichever solutions are at hand from the start:

* the command that is kept for a vehicle is the last one that a handle of it has accepted since it
  departed last, and there is none if there was no such command,
* only vehicles with handles have a command that is kept, and
* if a solution is acted on next that has no model, nothing is reported, no handle is called and no
  command changes.  If an event led to this solution, the event is in the ledger all the same. -/
theorem lastCommands_of_session {settings : Settings} {topology : Topology} {probe : Probe}
    {rules : String} {oracle : Oracle} {clock : Nat → Stamp} {m₀ : Monitor}
    (hmake : Monitor.make settings topology probe rules oracle clock = .ok m₀)
    (solutions : List Solution) (actions : List Action) :
    let s := Session.run ⟨m₀, solutions⟩ actions
    (∀ v, s.monitor.lastCommands[v]? = Log.latest v (Session.log ⟨m₀, solutions⟩ actions)) ∧
      (∀ v, s.monitor.lastCommands[v]? ≠ none → s.monitor.controls.contains v = true) ∧
      ∀ a solution report, s.acted? a = some (solution, report) →
        solution.outcome = .unsatisfiable ∨ solution.outcome = .undetermined ∨
          (∃ failure, solution.outcome = .failure failure) ∨ solution.outcome = .models [] →
        report = .none ∧ (s.act a).monitor.controls = s.monitor.controls ∧
          (s.act a).monitor.lastCommands = s.monitor.lastCommands ∧
          ∀ e, a = .event e → ∀ v, (s.act a).monitor.ledger.history v =
            if e.vehicle = v then ⟨some e.phase,
              (s.monitor.ledger.history v).facts ++ e.facts (e.tick m₀.resolution)⟩
            else s.monitor.ledger.history v := by
  intro s
  have hfresh := (Monitor.of_make hmake).1
  have hstart : Session.Replays [] m₀ := by
    refine ⟨fun v ↦ ?_, fun v hv ↦ ?_⟩
    · rw [hfresh.lastCommands]
      exact Std.ExtTreeMap.getElem?_empty
    · rw [hfresh.lastCommands] at hv
      exact absurd Std.ExtTreeMap.getElem?_empty hv
  have hs : Session.Replays (Session.log ⟨m₀, solutions⟩ actions) s.monitor := by
    simpa using hstart.run (s := ⟨m₀, solutions⟩) actions
  refine ⟨hs.lastCommands, hs.handles, fun a solution report hacted houtcome ↦ ?_⟩
  have hselected : solution.outcome.selected = none := by
    rcases houtcome with h | h | ⟨failure, h⟩ | h <;> rw [h] <;> rfl
  obtain ⟨rfl, hcontrols, hcommands⟩ := Session.act_of_acted hacted
  rw [s.monitor.dispatch_of_selected_eq_none hselected] at hcontrols hcommands ⊢
  refine ⟨rfl, hcontrols, hcommands, ?_⟩
  rintro e rfl v
  have hturn : ¬ e.isDeparture = true := by
    intro he
    rw [s.acted_departure he] at hacted
    cases hacted
  have hresolution : s.monitor.resolution = m₀.resolution := Session.resolution_run _ actions
  rw [s.ledger_act]
  show (s.monitor.ledger.follow s.monitor.resolution e).history v = _
  rw [Ledger.follow, if_neg hturn, hresolution, Ledger.history_observeEvent]
  by_cases hv : e.vehicle = v
  · rw [if_pos hv, if_pos hv, hv]
  · rw [if_neg hv, if_neg hv]

/-- A car that has been told to stop keeps this command when a solve fails later. -/
theorem lastCommands_of_session_failure :
    ∃ (m₀ : Monitor) (car : VehicleId) (solution failed : Solution),
      let s := Session.run ⟨m₀, [solution, failed]⟩ [.attach car .obeying, .dispatch 0]
      Monitor.make .standard .empty (fun _ _ ↦ false) "" (.stratified standardBudget)
          (fun _ ↦ .ofText "") = .ok m₀ ∧
        s.monitor.lastCommands[car]? = some .stop ∧ s.monitor.controls.contains car = true ∧
        s.acted? (.dispatch 1) = some (failed, .none) ∧
        (s.act (.dispatch 1)).monitor.lastCommands = s.monitor.lastCommands := by
  obtain ⟨m₀, hmake⟩ := Monitor.exists_make_standard .empty (fun _ _ ↦ false) ""
    (.stratified standardBudget) fun _ ↦ .ofText ""
  let car : VehicleId := ⟨"car", by decide⟩
  let model : Model := .ofAtoms [⟨stopPredicate, [.symbol car.constant]⟩]
  let solution : Solution := ⟨1, ⟨""⟩, .models [model]⟩
  let failed : Solution := ⟨2, ⟨""⟩, .failure (.crash none)⟩
  have hoffer :
      ((Controls.empty.attach car .obeying).dispatch model).1.issued = [(car, .stop)] := by
    decide
  have hissued : ((m₀.attach car .obeying).dispatch solution).1.issued = [(car, .stop)] := by
    have hcontrols : (m₀.attach car .obeying).controls = Controls.empty.attach car .obeying := by
      rw [Monitor.attach, (Monitor.of_make hmake).1.controls]
    have hselected : solution.outcome.selected = some model := rfl
    rw [Monitor.report_of_selected _ hselected, hcontrols]
    exact hoffer
  have hlog : Session.log ⟨m₀, [solution, failed]⟩ [.attach car .obeying, .dispatch 0] =
      [.accepted car .stop] := by
    have hacted : (Session.act ⟨m₀, [solution, failed]⟩ (.attach car .obeying)).acted?
        (.dispatch 0) = some (solution, ((m₀.attach car .obeying).dispatch solution).1) := rfl
    rw [Session.log, Session.log, Session.log, Session.entries_of_not_acted rfl,
      Session.entries_of_acted hacted, hissued]
    rfl
  obtain ⟨hlast, hhandles, hnext⟩ := lastCommands_of_session hmake [solution, failed]
    [.attach car .obeying, .dispatch 0]
  have hstop := hlast car
  rw [hlog] at hstop
  have hlatest : Log.latest car [.accepted car .stop] = some .stop := by decide
  obtain ⟨-, -, hcommands, -⟩ :=
    hnext (.dispatch 1) failed _ rfl (.inr (.inr (.inl ⟨_, rfl⟩)))
  refine ⟨m₀, car, solution, failed, hmake, hstop.trans hlatest, hhandles car ?_, rfl, hcommands⟩
  rw [hstop, hlatest]
  exact Option.some_ne_none _

end RightOfWay
