import Mathlib.Data.List.DropRight
import RightOfWay.Proofs.Arbitration.Calls
import RightOfWay.Proofs.Arbitration.ProgramText

/-!
# The ledger as a log of events

A ledger is updated event by event, and it forgets vehicles on the way.  Here it is read off the
whole list of events at once.

* The *stay* of a vehicle (`Event.stay`) consists of its events since its last departure.  Every
  event changes one stay and leaves the others as they are (`Event.stay_concat`).
* `Ledger.Logs r es l` says that the ledger holds, for each vehicle, what its stay makes true and
  nothing else.  An event carries that on (`Ledger.Logs.follow`), and the other calls to a monitor
  do not touch the ledger (`Session.ledger_act`).  So it holds in every state.
* Stays depend on the events vehicle by vehicle, and so does the text of the ledger
  (`ledger_of_session`).
-/

set_option autoImplicit false

namespace RightOfWay

/-! ## Stays -/

namespace Event

/-- The events of the vehicle since its last departure, or all of them if it never departed. -/
def stay (v : VehicleId) (es : List Event) : List Event :=
  (es.filter fun e ↦ e.vehicle = v).rtakeWhile fun e ↦ !e.isDeparture

theorem stay_concat (v : VehicleId) (es : List Event) (e : Event) :
    stay v (es ++ [e]) =
      if e.vehicle = v then if e.isDeparture then [] else stay v es ++ [e] else stay v es := by
  rw [stay, List.filter_append]
  by_cases hv : e.vehicle = v
  · rw [List.filter_singleton, decide_eq_true hv, cond_true, if_pos hv, List.rtakeWhile_concat]
    cases e.isDeparture <;> rfl
  · rw [List.filter_singleton, decide_eq_false hv, cond_false, if_neg hv, List.append_nil]
    rfl

theorem vehicle_of_mem_stay {v : VehicleId} {es : List Event} {e : Event} (h : e ∈ stay v es) :
    e.vehicle = v := by
  have hmem := (List.rtakeWhile_suffix _ _).subset h
  simpa using (List.mem_filter.1 hmem).2

/-- What the events make true, each at its own tick. -/
def allFacts (r : Resolution) (es : List Event) : List Atom := es.flatMap fun e ↦ e.facts (e.tick r)

theorem allFacts_concat (r : Resolution) (es : List Event) (e : Event) :
    allFacts r (es ++ [e]) = allFacts r es ++ e.facts (e.tick r) := by
  rw [allFacts, List.flatMap_append, List.flatMap_singleton]
  rfl

end Event

/-! ## Ledgers -/

/-- What is known about a vehicle after the events of its stay, if there are any. -/
def History.ofStay? (r : Resolution) (es : List Event) : Option History :=
  es.getLast?.map fun last ↦ ⟨some last.phase, Event.allFacts r es⟩

namespace History

variable {r : Resolution}

theorem ofStay?_concat (es : List Event) (e : Event) :
    ofStay? r (es ++ [e]) = some ⟨some e.phase, Event.allFacts r es ++ e.facts (e.tick r)⟩ := by
  rw [ofStay?, List.getLast?_concat, Event.allFacts_concat]
  rfl

theorem isSome_ofStay? {es : List Event} : (ofStay? r es).isSome = true ↔ es ≠ [] := by
  rw [ofStay?, Option.isSome_map, List.getLast?_isSome]

theorem getD_ofStay? (es : List Event) :
    (ofStay? r es).getD .blank = ⟨es.getLast?.map Event.phase, Event.allFacts r es⟩ := by
  rw [ofStay?]
  cases hlast : es.getLast? with
  | none =>
    obtain rfl := List.getLast?_eq_none_iff.1 hlast
    rfl
  | some last => rfl

end History

namespace Ledger

variable {r : Resolution} {es : List Event} {l : Ledger}

/-- The facts of a ledger, vehicle by vehicle. -/
theorem facts_eq_flatMap (l : Ledger) :
    l.facts = l.vehicles.flatMap fun v ↦ (l.history v).facts := by
  rw [facts, values_eq_map_toList, vehicles, ← Std.ExtTreeMap.map_fst_toList_eq_keys,
    List.flatMap_map, List.flatMap_map]
  refine List.flatMap_congr fun entry hmem ↦ ?_
  rw [history_eq, Std.ExtTreeMap.mem_toList_iff_getElem?_eq_some.1 hmem]
  rfl

/-- The ledger after an event. -/
def follow (r : Resolution) (l : Ledger) (e : Event) : Ledger :=
  if e.isDeparture then l.evict e.vehicle else l.observeEvent e (e.tick r)

/-- The ledger holds what the stays of the vehicles make true, and nothing else. -/
def Logs (r : Resolution) (es : List Event) (l : Ledger) : Prop :=
  ∀ v, l.agents[v]? = History.ofStay? r (Event.stay v es)

theorem logs_empty (r : Resolution) : Logs r [] empty := by
  intro v
  simp [empty, Event.stay, History.ofStay?]

namespace Logs

theorem contains_iff (h : Logs r es l) (v : VehicleId) :
    l.contains v = true ↔ Event.stay v es ≠ [] := by
  rw [contains_eq_isSome, h, History.isSome_ofStay?]

theorem history_eq (h : Logs r es l) (v : VehicleId) :
    l.history v =
      ⟨(Event.stay v es).getLast?.map Event.phase, Event.allFacts r (Event.stay v es)⟩ := by
  rw [l.history_eq, h, History.getD_ofStay?]

/-- One more event is one more event in the log. -/
theorem follow (h : Logs r es l) (e : Event) : Logs r (es ++ [e]) (l.follow r e) := by
  intro v
  rw [Ledger.follow, Event.stay_concat]
  by_cases hdeparture : e.isDeparture = true
  · rw [if_pos hdeparture, getElem?_evict]
    by_cases hv : e.vehicle = v
    · rw [if_pos hv, if_pos hv, if_pos hdeparture]
      rfl
    · rw [if_neg hv, if_neg hv]
      exact h v
  · rw [if_neg hdeparture, getElem?_observeEvent]
    by_cases hv : e.vehicle = v
    · rw [if_pos hv, if_pos hv, if_neg hdeparture, hv, h.history_eq, History.ofStay?_concat]
    · rw [if_neg hv, if_neg hv]
      exact h v

/-- The events tell the ledger, vehicle by vehicle. -/
theorem eq_of_filter_eq {es' : List Event} {l' : Ledger} (h : Logs r es l) (h' : Logs r es' l')
    (heq : ∀ v : VehicleId, (es'.filter fun e ↦ e.vehicle = v) = es.filter fun e ↦ e.vehicle = v) :
    l' = l := by
  have hstay : ∀ v, Event.stay v es' = Event.stay v es := fun v ↦ by
    rw [Event.stay, heq]
    rfl
  have hagents : l'.agents = l.agents :=
    Std.ExtTreeMap.ext_getElem? fun v ↦ by rw [h', h, hstay]
  cases l
  cases l'
  cases hagents
  rfl

/-- Every fact has a vehicle of the ledger first. -/
theorem exists_of_mem_facts (h : Logs r es l) {a : Atom} (ha : a ∈ l.facts) :
    ∃ v, l.contains v = true ∧ a.args.head? = some (.symbol v.constant) := by
  obtain ⟨v, hv⟩ := mem_facts.1 ha
  rw [h.history_eq] at hv
  obtain ⟨e, he, hfact⟩ := List.mem_flatMap.1 hv
  refine ⟨v, (h.contains_iff v).2 (List.ne_nil_of_mem he), ?_⟩
  rw [Event.head?_args_of_mem_facts hfact, Event.vehicle_of_mem_stay he]

end Logs
end Ledger

/-! ## Sessions -/

/-- The event that a call brings. -/
def Action.event? : Action → Option Event
  | .event e => some e
  | _ => none

namespace Session

variable {r : Resolution} {es : List Event}

/-- The events among the calls, in order. -/
def events (actions : List Action) : List Event := actions.filterMap Action.event?

theorem events_append (actions later : List Action) :
    events (actions ++ later) = events actions ++ events later :=
  List.filterMap_append

/-- A ledger changes by events only. -/
theorem ledger_act (s : Session) (a : Action) :
    (s.act a).monitor.ledger =
      a.event?.toList.foldl (Ledger.follow s.monitor.resolution) s.monitor.ledger := by
  obtain ⟨_, _, heq⟩ := s.exists_act_eq a
  rw [heq]
  cases a with
  | event e =>
    show (s.monitor.watch (.event e)).ledger = s.monitor.ledger.follow s.monitor.resolution e
    rw [Monitor.watch, Ledger.follow]
    split <;> rfl
  | setLane fork exit active =>
    dsimp only [Monitor.watch]
    split <;> rfl
  | attach | geometry | solve | dispatch => rfl

/-- The ledger logs the events of a session. -/
theorem logs_run {s : Session} (h : s.monitor.ledger.Logs s.monitor.resolution es)
    (actions : List Action) :
    (s.run actions).monitor.ledger.Logs s.monitor.resolution (es ++ events actions) := by
  induction actions generalizing s es with
  | nil => simpa [events] using h
  | cons a actions ih =>
    have hevents : es ++ events (a :: actions) = es ++ a.event?.toList ++ events actions := by
      rw [events, events, List.filterMap_cons, List.append_assoc]
      cases a.event? <;> rfl
    have hact : (s.act a).monitor.ledger.Logs (s.act a).monitor.resolution
        (es ++ a.event?.toList) := by
      rw [s.ledger_act, s.resolution_act]
      cases a.event? with
      | none => simpa using h
      | some e => exact h.follow e
    rw [hevents, ← s.resolution_act a]
    exact ih hact

end Session

/-- From the start on, the ledger logs the events of a session. -/
theorem Monitor.Fresh.logs_run {m : Monitor} (h : m.Fresh) (solutions : List Solution)
    (actions : List Action) :
    (Session.run ⟨m, solutions⟩ actions).monitor.ledger.Logs m.resolution
      (Session.events actions) := by
  have hempty : m.ledger.Logs m.resolution [] := by
    rw [h.ledger]
    exact Ledger.logs_empty _
  exact Session.logs_run (s := ⟨m, solutions⟩) hempty actions

/-- **The ledger is the log of the present stays.**  Whatever is called in a session, and whichever
solutions are at hand from the start:

* the vehicles in the ledger are those with an event since their last departure,
* what is known about a vehicle is what these events make true, in their order and each at its own
  tick, and its phase is the one after the last of them,
* each of these facts has the vehicle first,
* the text of the ledger has these facts, one on a line, vehicle by vehicle in order, and
* a session that has the same events for each vehicle, however mixed, ends with the same text. -/
theorem ledger_of_session {settings : Settings} {topology : Topology} {probe : Probe}
    {rules : String} {oracle : Oracle} {clock : Nat → Stamp} {m₀ : Monitor}
    (hmake : Monitor.make settings topology probe rules oracle clock = .ok m₀)
    (solutions : List Solution) (actions : List Action) :
    let stay := fun v ↦ Event.stay v (Session.events actions)
    let facts := fun v ↦ (stay v).flatMap fun e ↦ e.facts (e.tick m₀.resolution)
    let l := (Session.run ⟨m₀, solutions⟩ actions).monitor.ledger
    (∀ v, l.contains v = true ↔ stay v ≠ []) ∧
      (∀ v, l.history v = ⟨(stay v).getLast?.map Event.phase, facts v⟩) ∧
      (∀ v, ∀ a ∈ facts v, a.args.head? = some (.symbol v.constant)) ∧
      (∃ vehicles : List VehicleId, vehicles.Pairwise (fun v w ↦ compare v w = .lt) ∧
        (∀ v, v ∈ vehicles ↔ stay v ≠ []) ∧
        l.text = String.join ((vehicles.flatMap facts).map fun a ↦ a.factLine ++ "\n") ∧
        ∀ a ∈ vehicles.flatMap facts, '\n' ∉ a.factLine.toList) ∧
      ∀ (solutions' : List Solution) (actions' : List Action),
        (∀ v : VehicleId, ((Session.events actions').filter fun e ↦ e.vehicle = v) =
          (Session.events actions).filter fun e ↦ e.vehicle = v) →
        (Session.run ⟨m₀, solutions'⟩ actions').monitor.ledger.text = l.text := by
  intro stay facts l
  have hfresh := (Monitor.of_make hmake).1
  have hl : l.Logs m₀.resolution (Session.events actions) := hfresh.logs_run solutions actions
  have hmade : ∀ v, ∀ a ∈ facts v, ∃ e ∈ stay v, a ∈ e.facts (e.tick m₀.resolution) :=
    fun v a ha ↦ List.mem_flatMap.1 ha
  refine ⟨hl.contains_iff, hl.history_eq, fun v a ha ↦ ?_,
    ⟨l.vehicles, Std.ExtTreeMap.ordered_keys, fun v ↦ ?_, ?_, fun a ha ↦ ?_⟩,
    fun solutions' actions' heq ↦ ?_⟩
  · obtain ⟨e, he, hfact⟩ := hmade v a ha
    rw [Event.head?_args_of_mem_facts hfact, Event.vehicle_of_mem_stay he]
  · rw [← hl.contains_iff, Ledger.vehicles, Std.ExtTreeMap.mem_keys, Ledger.contains,
      Std.ExtTreeMap.contains_iff_mem]
  · rw [Ledger.text, renderFacts, l.facts_eq_flatMap]
    simp only [hl.history_eq]
    rfl
  · obtain ⟨v, -, ha⟩ := List.mem_flatMap.1 ha
    obtain ⟨e, -, hfact⟩ := hmade v a ha
    exact (Event.plain_of_mem_facts hfact).inline.lineEnd_notMem
  · rw [hl.eq_of_filter_eq (hfresh.logs_run solutions' actions') heq]

/-- A car arrives, leaves and comes back, while a bus arrives. -/
theorem ledger_of_session_return :
    ∃ (m₀ : Monitor) (car bus : VehicleId) (north : ForkId),
      let arrives : Action := .event (.arrival car north 1 none)
      let leaves : Action := .event (.departure car)
      let follows : Action := .event (.arrival bus north 2 none)
      let back : Event := .entrance car north 3
      let l := (Session.run ⟨m₀, []⟩ [arrives, leaves, follows, .solve, .event back]).monitor.ledger
      Monitor.make .standard .empty (fun _ _ ↦ false) "" (.stratified standardBudget)
          (fun _ ↦ .ofText "") = .ok m₀ ∧
        l.contains car = true ∧
        l.history car = ⟨some .entered, back.facts (back.tick m₀.resolution)⟩ ∧
        (Session.run ⟨m₀, []⟩ [follows, arrives, leaves, .event back]).monitor.ledger.text =
          l.text := by
  obtain ⟨m₀, hmake⟩ := Monitor.exists_make_standard .empty (fun _ _ ↦ false) ""
    (.stratified standardBudget) fun _ ↦ .ofText ""
  let car : VehicleId := ⟨"car", by decide⟩
  let bus : VehicleId := ⟨"bus", by decide⟩
  let north : ForkId := ⟨"north", by decide⟩
  have hne : bus ≠ car := by decide
  have hstay : Event.stay car [.arrival car north 1 none, .departure car, .arrival bus north 2 none,
      .entrance car north 3] = [.entrance car north 3] := by
    simp [Event.stay, Event.vehicle, hne, Event.isDeparture, List.rtakeWhile]
  have hmixed : ∀ v : VehicleId,
      ([.arrival bus north 2 none, .arrival car north 1 none, .departure car,
        .entrance car north 3] : List Event).filter (fun e ↦ e.vehicle = v) =
      ([.arrival car north 1 none, .departure car, .arrival bus north 2 none,
        .entrance car north 3] : List Event).filter fun e ↦ e.vehicle = v := by
    intro v
    by_cases hv : bus = v
    · subst hv
      simp [Event.vehicle, hne.symm]
    · simp [Event.vehicle, hv, List.filter_cons]
  obtain ⟨hcontains, hhistory, -, -, htext⟩ := ledger_of_session hmake []
    [.event (.arrival car north 1 none), .event (.departure car),
      .event (.arrival bus north 2 none), .solve, .event (.entrance car north 3)]
  refine ⟨m₀, car, bus, north, hmake, (hcontains car).2 ?_, (hhistory car).trans ?_,
    htext [] _ hmixed⟩
  · show Event.stay car [_, _, _, _] ≠ []
    rw [hstay]
    exact List.cons_ne_nil _ _
  · show (⟨(Event.stay car [_, _, _, _]).getLast?.map Event.phase,
      (Event.stay car [_, _, _, _]).flatMap _⟩ : History) = _
    rw [hstay]
    rfl

end RightOfWay
