import RightOfWay.Proofs.Yielding.Turns

/-!
# Lanes in use

A lane is meant to be in use from entry until exit.  But the rules keep facts and not their order,
so that they know no way back into a lane that was left.

* A vehicle counts as being in a lane if it entered it last and never left it before
  (`Monitor.isIn_iff_getLast?`).
* So says the selected model (`inLane_of_session`), also of a bus that is in a lane once more
  (`not_inLane_again`).
-/

set_option autoImplicit false

namespace RightOfWay

/-! ## The last event on a lane -/

namespace Event

/-- Whether the lane is entered or left. -/
def concerns (l : LaneId) : Event → Bool
  | enterLane _ k _ => k = l
  | exitLane _ k _ => k = l
  | _ => false

/-- The events since the last departure of the vehicle by which it entered or left the lane. -/
def laneEvents (v : VehicleId) (l : LaneId) (es : List Event) : List Event :=
  (stay v es).filter (concerns l)

variable {v : VehicleId} {l : LaneId} {es : List Event} {e : Event} {time : Float}

theorem enterLane_mem_laneEvents : .enterLane v l time ∈ laneEvents v l es ↔
    .enterLane v l time ∈ stay v es := by
  simp [laneEvents, concerns]

theorem exitLane_mem_laneEvents : .exitLane v l time ∈ laneEvents v l es ↔
    .exitLane v l time ∈ stay v es := by
  simp [laneEvents, concerns]

theorem eq_of_mem_laneEvents (h : e ∈ laneEvents v l es) :
    ∃ time, e = .enterLane v l time ∨ e = .exitLane v l time := by
  obtain ⟨hstay, hconcerns⟩ := List.mem_filter.1 h
  obtain rfl := vehicle_of_mem_stay hstay
  cases e with
  | enterLane v k time =>
    obtain rfl := of_decide_eq_true hconcerns
    exact ⟨time, .inl rfl⟩
  | exitLane v k time =>
    obtain rfl := of_decide_eq_true hconcerns
    exact ⟨time, .inr rfl⟩
  | arrival | entrance | departure => cases hconcerns

end Event

namespace Monitor

variable {m : Monitor} {v : VehicleId} {l : LaneId} {r : Resolution} {es : List Event}

/-- A vehicle counts as being in a lane if it entered it last, and if it never left it before. -/
theorem isIn_iff_getLast? (h : m.ledger.Logs r es) :
    m.IsIn v l ↔
      (∃ time, (Event.laneEvents v l es).getLast? = some (.enterLane v l time)) ∧
        ∀ time, .exitLane v l time ∉ Event.laneEvents v l es := by
  rw [isIn_iff h]
  simp only [Event.exitLane_mem_laneEvents]
  refine and_congr_left fun hexit ↦ ⟨?_, ?_⟩
  · rintro ⟨time, henter⟩
    have hne := List.ne_nil_of_mem (Event.enterLane_mem_laneEvents.2 henter)
    have hmem := List.getLast_mem hne
    obtain ⟨time', hlast | hlast⟩ := Event.eq_of_mem_laneEvents hmem
    · exact ⟨time', by rw [List.getLast?_eq_getLast_of_ne_nil hne, hlast]⟩
    · rw [hlast] at hmem
      exact absurd (Event.exitLane_mem_laneEvents.1 hmem) (hexit time')
  · rintro ⟨time, hlast⟩
    exact ⟨time, Event.enterLane_mem_laneEvents.1 (List.mem_of_getLast? hlast)⟩

end Monitor

/-- **A lane counts as in use if it was entered last and never left before.**  Take any session with
the traffic rules and the built-in oracle, and a call in it that gives a solution, with a program
that the standard budget is enough for.  Then the selected model has a vehicle in a lane exactly if
the last event since its departure by which it entered or left the lane is that it entered, and none
of these events is that it left. -/
theorem inLane_of_session {settings : Settings} {topology : Topology} {probe : Probe}
    {clock : Nat → Stamp} {m₀ : Monitor}
    (hmake : Monitor.make settings topology probe yieldText (.stratified standardBudget) clock =
      .ok m₀)
    (actions : List Action) {a : Action} {solution : Solution}
    (hsolved : ((Session.start m₀).run actions).solved? a = some solution)
    (hbudget : ∀ rules, parseProgram solution.program.text = .ok rules →
      evaluate standardBudget rules ≠ .budgetExceeded) :
    let es := Session.events (actions ++ [a])
    ∃ model, solution.outcome.selected = some model ∧ ∀ (v : VehicleId) (l : LaneId),
      ⟨"inLane", [.symbol v.constant, .symbol l.constant]⟩ ∈ model ↔
        (∃ time, (Event.laneEvents v l es).getLast? = some (.enterLane v l time)) ∧
          ∀ time, .exitLane v l time ∉ Event.laneEvents v l es := by
  intro es
  obtain ⟨model, hselected, -, -, hin⟩ := Session.exists_model_of_solved hmake hsolved hbudget
  have hlogs : (((Session.start m₀).run actions).act a).monitor.ledger.Logs m₀.resolution es := by
    have hrun := (Monitor.of_make hmake).1.logs_run [] (actions ++ [a])
    rwa [Session.run_append] at hrun
  refine ⟨model, hselected, fun v l ↦ ?_⟩
  rw [hin, Monitor.isIn_iff_getLast? hlogs]

/-- A bus leaves a lane and the crossing, and it comes back into the lane. -/
theorem inLane_of_session_return :
    ∃ (m₀ : Monitor) (solution : Solution) (model : Model),
      let s := (Session.start m₀).run [.event (.enterLane Road.bus Road.lane 1),
        .event (.exitLane Road.bus Road.lane 2), .event (.departure Road.bus)]
      Monitor.make .standard Road.topology Road.probe yieldText (.stratified standardBudget)
          (fun _ ↦ .ofText "") = .ok m₀ ∧
        s.solved? (.event (.enterLane Road.bus Road.lane 3)) = some solution ∧
        solution.outcome.selected = some model ∧
        ⟨"inLane", [.symbol Road.bus.constant, .symbol Road.lane.constant]⟩ ∈ model := by
  obtain ⟨m₀, hmake⟩ := Road.exists_make
  obtain ⟨-, -, -, solution, hsolved, hbudget⟩ := Session.exists_solved_of_events hmake
    [.enterLane Road.bus Road.lane 1, .exitLane Road.bus Road.lane 2, .departure Road.bus]
    (e := .enterLane Road.bus Road.lane 3) nofun (by decide +kernel)
  obtain ⟨model, hselected, hin⟩ := inLane_of_session hmake _ hsolved hbudget
  have hevents : Event.laneEvents Road.bus Road.lane [.enterLane Road.bus Road.lane 1,
      .exitLane Road.bus Road.lane 2, .departure Road.bus, .enterLane Road.bus Road.lane 3] =
      [.enterLane Road.bus Road.lane 3] := by
    simp [Event.laneEvents, Event.stay, Event.vehicle, Event.isDeparture, Event.concerns,
      List.rtakeWhile]
  refine ⟨m₀, solution, model, hmake, hsolved, hselected, (hin _ _).2 ?_⟩
  show (∃ time, (Event.laneEvents _ _ [_, _, _, _]).getLast? = _) ∧
    ∀ time, _ ∉ Event.laneEvents _ _ [_, _, _, _]
  rw [hevents]
  exact ⟨⟨3, rfl⟩, by simp⟩

/-- A bus leaves a lane and enters it again, all in good order.  The last thing it did was to enter,
and it does not count as being in the lane. -/
theorem not_inLane_again :
    ∃ (m₀ : Monitor) (solution : Solution) (model : Model),
      let es : List Event := [.arrival Road.bus Road.west 1 none, .entrance Road.bus Road.west 2,
        .enterLane Road.bus Road.lane 3, .exitLane Road.bus Road.lane 4]
      let again : Event := .enterLane Road.bus Road.lane 5
      let s := (Session.start m₀).run (es.map .event)
      Monitor.make .standard Road.topology Road.probe yieldText (.stratified standardBudget)
          (fun _ ↦ .ofText "") = .ok m₀ ∧
        s.solved? (.event again) = some solution ∧ solution.outcome.selected = some model ∧
        (Event.laneEvents Road.bus Road.lane (es ++ [again])).getLast? = some again ∧
        ⟨"inLane", [.symbol Road.bus.constant, .symbol Road.lane.constant]⟩ ∉ model := by
  obtain ⟨m₀, hmake⟩ := Road.exists_make
  obtain ⟨-, -, hlogs, solution, hsolved, hbudget⟩ := Session.exists_solved_of_events hmake
    [.arrival Road.bus Road.west 1 none, .entrance Road.bus Road.west 2,
      .enterLane Road.bus Road.lane 3, .exitLane Road.bus Road.lane 4]
    (e := .enterLane Road.bus Road.lane 5) nofun (by decide +kernel)
  obtain ⟨model, hselected, -, -, hin⟩ := Session.exists_model_of_solved hmake hsolved hbudget
  refine ⟨m₀, solution, model, hmake, hsolved, hselected, ?_, fun hmem ↦ ?_⟩
  · simp [Event.laneEvents, Event.stay, Event.vehicle, Event.isDeparture, Event.concerns,
      List.rtakeWhile]
  · have hleft := ((Monitor.isIn_iff hlogs).1 ((hin _ _).1 hmem)).2
    refine hleft 4 ((Event.mem_stay (by simp)).2 ⟨?_, rfl⟩)
    simp

end RightOfWay
