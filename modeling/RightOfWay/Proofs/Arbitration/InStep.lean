import RightOfWay.Arbitration.Replay
import RightOfWay.Proofs.Arbitration.Departure
import RightOfWay.Proofs.Arbitration.Solving

/-!
# Replays keep step

In a replay every vehicle gets a handle when it is first heard of and loses it when it departs,
and these are the times when it gets into the ledger and out of it.  So the vehicles with handles
are those in the ledger (`Monitor.InStep`), whatever the order of events and whatever the models.

All these handles obey.  So no verdict is skipped because a vehicle refuses, and none on a vehicle
in the ledger for want of a handle (`Controls.Excused`).

* `Monitor.InStep.next` is the step: one event, put to a monitor that has welcomed its vehicle.
* `Monitor.replay_concat` says what one more event adds to a replay, `Monitor.Fresh.inStep_replay`
  follows event by event, and `replay_of_make` says it of every state that a replay goes through.
* `Monitor.exists_run_eq_replay` finds a session for every replay, so that what is known of sessions
  holds of replays.
-/

set_option autoImplicit false

namespace RightOfWay

/-! ## Handles that obey -/

namespace Controls

/-- All handles accept every command at any time. -/
def Obedient (c : Controls) : Prop :=
  ∀ (v : VehicleId) (h : Handle), c.handles[v]? = some h → ∀ earlier command,
    h.accepts earlier command = true

/-- No verdict was skipped because of a refusal, nor any on a vehicle with a handle for want of
one. -/
structure Excused (c : Controls) (report : Dispatch) : Prop where
  refused : ∀ v command, .refused v command ∉ report.skipped
  unresolved : ∀ v command, .unresolved v command ∈ report.skipped → c.contains v = false

variable {c : Controls}

theorem obedient_empty : empty.Obedient := by
  intro v h hh
  simp [empty] at hh

namespace Obedient

theorem attach_obeying (hc : c.Obedient) (v : VehicleId) : (c.attach v .obeying).Obedient :=
  forall_getElem?_insert hc fun _ _ ↦ rfl

theorem detach (hc : c.Obedient) (v : VehicleId) : (c.detach v).Obedient := by
  intro w h hh
  rw [Controls.detach, Std.ExtTreeMap.getElem?_erase] at hh
  split at hh
  · cases hh
  · exact hc w h hh

theorem carryOut (hc : c.Obedient) (stopped : List VehicleId) {report : Dispatch}
    (hreport : c.Excused report) (order : VehicleId × Command) :
    (Controls.carryOut stopped (report, c) order).2.Obedient ∧
      c.Excused (Controls.carryOut stopped (report, c) order).1 := by
  obtain ⟨v, command⟩ := order
  rcases carryOut_cases stopped report c v command with
    ⟨-, heq⟩ | ⟨-, hnone, heq⟩ | ⟨handle, hhandle, ⟨-, heq⟩ | ⟨hrefuses, -⟩⟩
  · rw [heq]
    refine ⟨hc, fun w command' ↦ ?_, fun w command' ↦ ?_⟩
    · simpa [Dispatch.addSkip] using hreport.refused w command'
    · simpa [Dispatch.addSkip] using hreport.unresolved w command'
  · rw [heq]
    refine ⟨hc, fun w command' ↦ ?_, fun w command' hskip ↦ ?_⟩
    · simpa [Dispatch.addSkip] using hreport.refused w command'
    · rcases List.mem_append.1 hskip with hold | hnew
      · exact hreport.unresolved w command' hold
      · cases List.mem_singleton.1 hnew
        exact hnone
  · rw [heq]
    exact ⟨forall_getElem?_insert hc (hc v handle hhandle), hreport.refused, hreport.unresolved⟩
  · rw [Handle.takes, hc v handle hhandle] at hrefuses
    cases hrefuses

theorem foldl_carryOut (hc : c.Obedient) (stopped : List VehicleId) {report : Dispatch}
    (hreport : c.Excused report) (orders : List (VehicleId × Command)) :
    (orders.foldl (Controls.carryOut stopped) (report, c)).2.Obedient ∧
      c.Excused (orders.foldl (Controls.carryOut stopped) (report, c)).1 := by
  induction orders generalizing report c with
  | nil => exact ⟨hc, hreport⟩
  | cons order orders ih =>
    obtain ⟨hnext, hexcused⟩ := hc.carryOut stopped hreport order
    -- the same vehicles have handles before the order and after it
    have hcontains := contains_carryOut stopped (report, c) order
    obtain ⟨hlast, hrefused, hunresolved⟩ := ih hnext ⟨hexcused.refused, fun v command hskip ↦
      (hcontains v).trans (hexcused.unresolved v command hskip)⟩
    exact ⟨hlast, hrefused, fun v command hskip ↦
      (hcontains v).symm.trans (hunresolved v command hskip)⟩

/-- Obedient handles stay so, and they give no reason to skip a verdict. -/
theorem dispatch (hc : c.Obedient) (m : Model) :
    (c.dispatch m).2.Obedient ∧ c.Excused (c.dispatch m).1 :=
  hc.foldl_carryOut m.stopped ⟨by simp, by simp⟩ m.plan

end Obedient
end Controls

/-! ## One event -/

namespace Monitor

variable {m : Monitor} {e : Event}

/-- The vehicles with handles are those in the ledger, and they obey. -/
structure InStep (m : Monitor) : Prop where
  contains : ∀ v, m.controls.contains v = m.ledger.contains v
  obedient : m.controls.Obedient

theorem Fresh.inStep (h : m.Fresh) : m.InStep := by
  refine ⟨fun v ↦ ?_, ?_⟩
  · rw [h.controls, h.ledger]
    simp [Controls.contains, Controls.empty, Ledger.contains, Ledger.empty]
  · rw [h.controls]
    exact Controls.obedient_empty

/-- Both lists are ordered, so that they are the same list. -/
theorem InStep.vehicles_eq (h : m.InStep) : m.controls.vehicles = m.ledger.vehicles := by
  refine eq_of_ordered Std.ExtTreeMap.ordered_keys Std.ExtTreeMap.ordered_keys fun v ↦ ?_
  exact (Controls.mem_vehicles.trans (Bool.eq_iff_iff.1 (h.contains v))).trans
    Ledger.mem_vehicles.symm

theorem obedient_dispatch (h : m.controls.Obedient) (s : Solution) :
    (m.dispatch s).2.controls.Obedient ∧ m.controls.Excused (m.dispatch s).1 := by
  cases hselected : s.outcome.selected with
  | none =>
    rw [m.dispatch_of_selected_eq_none hselected]
    exact ⟨h, nofun, nofun⟩
  | some model =>
    rw [m.dispatch_of_selected hselected]
    exact h.dispatch model

theorem welcome_departure (m : Monitor) (he : e.isDeparture = true) : m.welcome e = m := by
  rw [welcome, he, Bool.true_or, if_pos rfl]

/-- A vehicle that does not depart has a handle from then on. -/
theorem contains_welcome (m : Monitor) (he : ¬ e.isDeparture = true) (v : VehicleId) :
    (m.welcome e).controls.contains v =
      if e.vehicle = v then true else m.controls.contains v := by
  rw [welcome, Bool.eq_false_of_not_eq_true he, Bool.false_or]
  by_cases hknown : m.controls.contains e.vehicle = true
  · rw [if_pos hknown]
    by_cases hv : e.vehicle = v
    · rw [if_pos hv, ← hv, hknown]
    · rw [if_neg hv]
  · rw [if_neg hknown]
    exact m.controls.contains_attach e.vehicle v .obeying

/-- To welcome a vehicle is to attach a handle, if anything. -/
theorem exists_run_eq_welcome (s : Session) (e : Event) :
    ∃ actions, (s.run actions).monitor = s.monitor.welcome e ∧ Session.events actions = [] := by
  rw [welcome]
  split
  · exact ⟨[], rfl, rfl⟩
  · exact ⟨[.attach e.vehicle .obeying], rfl, rfl⟩

theorem obedient_welcome (h : m.controls.Obedient) (e : Event) :
    (m.welcome e).controls.Obedient := by
  rw [welcome]
  split
  · exact h
  · exact h.attach_obeying e.vehicle

theorem ledger_welcome (m : Monitor) (e : Event) : (m.welcome e).ledger = m.ledger := by
  rw [welcome]
  split <;> rfl

theorem accepted_welcome (m : Monitor) (e : Event) :
    (m.welcome e).controls.accepted = m.controls.accepted := by
  rw [welcome]
  split <;> rfl

/-- What comes of the next event of a replay, and the monitor after it. -/
def next (m : Monitor) (e : Event) : Option Cycle × Monitor := (m.welcome e).handle e

theorem contains_ledger_next (m : Monitor) (e : Event) (v : VehicleId) :
    (m.next e).2.ledger.contains v =
      if e.vehicle = v then !e.isDeparture else m.ledger.contains v := by
  have hledger : (m.next e).2.ledger = m.ledger.follow (m.welcome e).resolution e := by
    rw [next, ← Session.monitor_act_event ⟨m.welcome e, []⟩, Session.ledger_act, ledger_welcome]
    rfl
  rw [hledger, Ledger.contains_follow]

/-- **One event keeps handles and ledger in step.**  The commands that it issues are accepted, and
no verdict on a vehicle in the ledger is skipped for want of a handle or because of a refusal. -/
theorem InStep.next (h : m.InStep) (e : Event) :
    (m.next e).2.InStep ∧
      (m.next e).2.controls.accepted =
        m.controls.accepted ++ (m.next e).1.toList.flatMap (·.dispatch.issued) ∧
      ∀ cycle, (m.next e).1 = some cycle → (m.next e).2.controls.Excused cycle.dispatch := by
  have hledger := m.contains_ledger_next e
  by_cases he : e.isDeparture = true
  · have hnext : m.next e = (none, m.forget e.vehicle) := by
      rw [Monitor.next, m.welcome_departure he, m.handle_departure he]
    rw [hnext] at hledger ⊢
    refine ⟨⟨fun v ↦ ?_, h.obedient.detach e.vehicle⟩, (List.append_nil _).symm, nofun⟩
    rw [hledger, forget, Controls.contains_detach, he, h.contains]
    rfl
  · -- the vehicle has a handle by the time that verdicts are carried out
    have hobedient := obedient_welcome h.obedient e
    let solving := ((m.welcome e).record e).solve
    have hnext : m.next e =
        (some ⟨solving.1, (solving.2.dispatch solving.1).1⟩, (solving.2.dispatch solving.1).2) :=
      (m.welcome e).handle_turn he
    have hcontains : ∀ v, (solving.2.dispatch solving.1).2.controls.contains v =
        (m.welcome e).controls.contains v := solving.2.contains_dispatch solving.1
    obtain ⟨hkept, hexcused⟩ := obedient_dispatch (m := solving.2) hobedient solving.1
    rw [hnext] at hledger ⊢
    refine ⟨⟨fun v ↦ ?_, hkept⟩, ?_, ?_⟩
    · rw [hledger, hcontains, m.contains_welcome he, h.contains, Bool.eq_false_of_not_eq_true he]
      rfl
    · rw [(solving.2.accepted_dispatch solving.1).1, ← m.accepted_welcome e, Option.toList_some,
        List.flatMap_singleton]
      rfl
    · rintro _ ⟨⟩
      exact ⟨hexcused.refused, fun v command hskip ↦
        (hcontains v).trans (hexcused.unresolved v command hskip)⟩

end Monitor

/-! ## Replays -/

/-- The commands that were issued; none at a departure. -/
def Step.issued (s : Step) : List (VehicleId × Command) :=
  s.cycle?.toList.flatMap (·.dispatch.issued)

namespace Monitor

variable {m : Monitor}

theorem replayFrom_cons (index : Nat) (m : Monitor) (e : Event) (es : List Event) :
    m.replayFrom index (e :: es) =
      (⟨index, e, (m.next e).1⟩ :: ((m.next e).2.replayFrom (index + 1) es).1,
        ((m.next e).2.replayFrom (index + 1) es).2) :=
  rfl

/-- One more event gives one more step. -/
theorem replayFrom_concat (index : Nat) (m : Monitor) (es : List Event) (e : Event) :
    m.replayFrom index (es ++ [e]) =
      ((m.replayFrom index es).1 ++
          [⟨index + es.length, e, ((m.replayFrom index es).2.next e).1⟩],
        ((m.replayFrom index es).2.next e).2) := by
  induction es generalizing index m with
  | nil => rfl
  | cons e' es ih =>
    have hindex : index + 1 + es.length = index + (e' :: es).length := by
      rw [List.length_cons]
      omega
    rw [List.cons_append, replayFrom_cons, replayFrom_cons, ih, hindex]
    rfl

theorem replay_concat (m : Monitor) (es : List Event) (e : Event) :
    m.replay (es ++ [e]) =
      ((m.replay es).1 ++ [⟨es.length + 1, e, ((m.replay es).2.next e).1⟩],
        ((m.replay es).2.next e).2) := by
  rw [replay, replayFrom_concat, Nat.add_comm]
  rfl

theorem length_replay (m : Monitor) (es : List Event) : (m.replay es).1.length = es.length := by
  induction es using List.reverseRecOn with
  | nil => rfl
  | append_singleton es e ih => rw [replay_concat, List.length_append, List.length_append, ih]; rfl

/-- The step of an event comes from the state after the events before it. -/
theorem getElem?_replay (m : Monitor) (es : List Event) (n : Nat) :
    (m.replay es).1[n]? =
      es[n]?.map fun e ↦ ⟨n + 1, e, ((m.replay (es.take n)).2.next e).1⟩ := by
  induction es using List.reverseRecOn with
  | nil => rfl
  | append_singleton es e ih =>
    have hlength := m.length_replay es
    rw [replay_concat]
    rcases Nat.lt_trichotomy n es.length with hn | rfl | hn
    · rw [List.getElem?_append_left (hlength ▸ hn), List.getElem?_append_left hn, ih,
        List.take_append_of_le_length hn.le]
    · rw [List.getElem?_append_right hlength.le, hlength, Nat.sub_self, List.getElem?_concat_length,
        List.take_left]
      rfl
    · rw [List.getElem?_eq_none (by simp [hlength]; omega), List.getElem?_eq_none (by simp; omega)]
      rfl

/-- What happens later does not change the steps so far. -/
theorem replay_take (m : Monitor) (es : List Event) (n : Nat) :
    (m.replay (es.take n)).1 = (m.replay es).1.take n := by
  refine List.ext_getElem? fun k ↦ ?_
  rw [getElem?_replay, List.getElem?_take, List.getElem?_take, getElem?_replay]
  by_cases hk : k < n
  · rw [if_pos hk, if_pos hk, List.take_take, Nat.min_eq_left hk.le]
  · rw [if_neg hk, if_neg hk]
    rfl

/-- A replay is a session with the same events. -/
theorem exists_run_eq_replay (m : Monitor) (es : List Event) :
    ∃ actions, ((Session.start m).run actions).monitor = (m.replay es).2 ∧
      Session.events actions = es := by
  induction es using List.reverseRecOn with
  | nil => exact ⟨[], rfl, rfl⟩
  | append_singleton es e ih =>
    obtain ⟨actions, hmonitor, hevents⟩ := ih
    obtain ⟨admission, hadmission, hnone⟩ := exists_run_eq_welcome ((Session.start m).run actions) e
    refine ⟨actions ++ admission ++ [.event e], ?_, ?_⟩
    · rw [Session.run_append, Session.run_append, Session.run_cons, Session.run_nil,
        Session.monitor_act_event, hadmission, hmonitor, replay_concat, next]
    · rw [Session.events_append, Session.events_append, hevents, hnone, List.append_nil]
      rfl

/-- In step from the first event to the last, and every accepted command is in some step. -/
theorem Fresh.inStep_replay (h : m.Fresh) (es : List Event) :
    (m.replay es).2.InStep ∧
      (m.replay es).2.controls.accepted = (m.replay es).1.flatMap Step.issued := by
  induction es using List.reverseRecOn with
  | nil => exact ⟨h.inStep, congrArg Controls.accepted h.controls⟩
  | append_singleton es e ih =>
    obtain ⟨hnext, haccepted, -⟩ := ih.1.next e
    rw [replay_concat]
    refine ⟨hnext, ?_⟩
    rw [haccepted, ih.2, List.flatMap_append, List.flatMap_singleton]
    rfl

/-- The vehicles in the ledger are those with an event since their last departure. -/
theorem Fresh.contains_replay (h : m.Fresh) (es : List Event) (v : VehicleId) :
    (m.replay es).2.ledger.contains v = true ↔ Event.stay v es ≠ [] := by
  obtain ⟨actions, hmonitor, rfl⟩ := m.exists_run_eq_replay es
  rw [← hmonitor]
  exact (h.logs_run [] actions).contains_iff v

end Monitor

/-- **A replay keeps handles and ledger in step.**  Whatever the rules and the oracle, and whatever
the events:

* there is one step for each event, numbered from one, and no step depends on later events,
* after each event, the vehicles with handles are the vehicles in the ledger, namely those with an
  event since their last departure, and the accepted commands are those issued in the steps so far,
  in this order, and
* in no step is a verdict on a vehicle that is then in the ledger skipped because it has no handle
  or because it refuses. -/
theorem replay_of_make {settings : Settings} {topology : Topology} {probe : Probe}
    {rules : String} {oracle : Oracle} {clock : Nat → Stamp} {m₀ : Monitor}
    (hmake : Monitor.make settings topology probe rules oracle clock = .ok m₀)
    (events : List Event) :
    let steps := (m₀.replay events).1
    let after (n : Nat) := (m₀.replay (events.take n)).2
    steps.map (fun step ↦ (step.event, step.index)) = events.zipIdx 1 ∧
      (∀ n, (m₀.replay (events.take n)).1 = steps.take n ∧
        (after n).controls.vehicles = (after n).ledger.vehicles ∧
        (∀ v, v ∈ (after n).ledger.vehicles ↔ Event.stay v (events.take n) ≠ []) ∧
        (after n).controls.accepted = (steps.take n).flatMap Step.issued) ∧
      ∀ n step cycle, steps[n]? = some step → step.cycle? = some cycle →
        ∀ v, (after (n + 1)).ledger.contains v = true → ∀ command,
          .unresolved v command ∉ cycle.dispatch.skipped ∧
          .refused v command ∉ cycle.dispatch.skipped := by
  intro steps after
  have hfresh := (Monitor.of_make hmake).1
  refine ⟨List.ext_getElem? fun n ↦ ?_, fun n ↦ ?_, fun n step cycle hstep hcycle v hv command ↦ ?_⟩
  · rw [List.getElem?_map, Monitor.getElem?_replay, List.getElem?_zipIdx, Nat.add_comm]
    cases events[n]? <;> rfl
  · obtain ⟨hinStep, haccepted⟩ := hfresh.inStep_replay (events.take n)
    have htake := m₀.replay_take events n
    refine ⟨htake, hinStep.vehicles_eq, fun v ↦ ?_, htake ▸ haccepted⟩
    exact Ledger.mem_vehicles.trans (hfresh.contains_replay _ v)
  · rw [Monitor.getElem?_replay, Option.map_eq_some_iff] at hstep
    obtain ⟨e, he, rfl⟩ := hstep
    have hafter : after (n + 1) = ((after n).next e).2 := by
      show (m₀.replay (events.take (n + 1))).2 = _
      rw [List.take_add_one, he, Option.toList_some, Monitor.replay_concat]
    -- the cycle is that of one event, put to a state in which all is in step
    obtain ⟨hinStep, -, hexcused⟩ := (hfresh.inStep_replay (events.take n)).1.next e
    obtain ⟨hrefused, hunresolved⟩ := hexcused cycle hcycle
    refine ⟨fun hskip ↦ ?_, hrefused v command⟩
    have hnone := hunresolved v command hskip
    rw [hinStep.contains, ← hafter, hv] at hnone
    cases hnone

/-- A car leaves before it is heard of, then it arrives, and the oracle has it stop whatever
happens.  So it is told to stop, and this is the one command that is ever accepted. -/
theorem replay_of_make_strict :
    ∃ (car : VehicleId) (north : ForkId) (model : Model) (m₀ : Monitor) (cycle : Cycle),
      let oracle : Oracle := ⟨"strict", fun _ _ _ ↦ .outcome (.models [model])⟩
      let (steps, m) := m₀.replay [.departure car, .arrival car north 1 none]
      Monitor.make .standard .empty (fun _ _ ↦ false) "" oracle (fun _ ↦ .ofText "") = .ok m₀ ∧
        steps[1]?.bind Step.cycle? = some cycle ∧ cycle.solution.outcome.selected = some model ∧
        ⟨stopPredicate, [.symbol car.constant]⟩ ∈ model ∧ car ∈ m.controls.vehicles ∧
        cycle.dispatch.issued = [(car, .stop)] ∧ m.controls.accepted = [(car, .stop)] ∧
        ∀ command, .unresolved car command ∉ cycle.dispatch.skipped ∧
          .refused car command ∉ cycle.dispatch.skipped := by
  let car : VehicleId := ⟨"car", by decide⟩
  let north : ForkId := ⟨"north", by decide⟩
  let arrival : Event := .arrival car north 1 none
  let verdicts : List Atom := [⟨stopPredicate, [.symbol car.constant]⟩]
  obtain ⟨m₀, hmake⟩ := Monitor.exists_make_standard .empty (fun _ _ ↦ false) ""
    ⟨"strict", fun _ _ _ ↦ .outcome (.models [.ofAtoms verdicts])⟩ fun _ ↦ .ofText ""
  obtain ⟨hfresh, -, horacle, -⟩ := Monitor.of_make hmake
  let m := (m₀.forget car).welcome arrival
  have hwelcome : m = (m₀.forget car).attach car .obeying := by
    refine if_neg ?_
    show ¬ (false || (m₀.controls.detach car).contains car) = true
    rw [hfresh.controls]
    decide
  have houtcome : (m.record arrival).solve.1.outcome = .models [.ofAtoms verdicts] := by
    show ((m.advisor.oracle.reply _ _ m.advisor.cap).toOutcome).canonicalize m.advisor.cap = _
    rw [show m.advisor = m₀.advisor by rw [hwelcome]; rfl, horacle]
    exact Evaluation.canonicalize_toOutcome m₀.advisor.cap_pos (.model verdicts)
  have hselected := congrArg Outcome.selected houtcome
  have hstop : (((Controls.empty.detach car).attach car .obeying).dispatch
      (.ofAtoms verdicts)).1.issued = [(car, .stop)] := by
    decide +kernel
  have hissued : ((m.record arrival).solve.2.dispatch (m.record arrival).solve.1).1.issued =
      [(car, .stop)] := by
    have hcontrols : (m.record arrival).solve.2.controls =
        (Controls.empty.detach car).attach car .obeying := by
      show m.controls = _
      rw [hwelcome, Monitor.attach, Monitor.forget, hfresh.controls]
    rw [Monitor.report_of_selected _ hselected, hcontrols]
    exact hstop
  obtain ⟨-, hstates, hskips⟩ := replay_of_make hmake [.departure car, arrival]
  obtain ⟨-, hvehicles, -, haccepted⟩ := hstates 2
  have hcontains : (m₀.replay [.departure car, arrival]).2.ledger.contains car = true :=
    ((m₀.forget car).contains_ledger_next arrival car).trans (if_pos rfl)
  refine ⟨car, north, .ofAtoms verdicts, m₀, _, hmake, rfl, hselected, by simp [verdicts],
    hvehicles.symm ▸ Ledger.mem_vehicles.2 hcontains, hissued, haccepted.trans ?_,
    hskips 1 _ _ rfl rfl car hcontains⟩
  show [] ++ ((_ ++ []) ++ []) = _
  rw [List.nil_append, List.append_nil, List.append_nil]
  exact hissued

end RightOfWay
