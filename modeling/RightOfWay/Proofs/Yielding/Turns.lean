import RightOfWay.Proofs.Arbitration.EventLog
import RightOfWay.Proofs.Yielding.Arbiter

/-!
# Turns under the traffic rules

Calls that give a solution, in a session with the traffic rules and the built-in oracle.

* What the arbiter asks about a vehicle can be read off the events of its present stay
  (`Monitor.waits_iff`, `Monitor.isIn_iff` and so on).
* If the budget is enough, then the solution of a call selects one model, and this says of the state
  that the call leaves what the arbiter says (`Session.exists_model_of_solved`).  In a short session
  of events the budget is always enough (`Session.exists_solved_of_events`).
* So it is in every state that a session reaches: a solve gives one model, and its verdicts are
  those of the arbiter (`arbitrates_of_session`).
* `Road` is a small crossing to try things on.
-/

set_option autoImplicit false

namespace RightOfWay

/-! ## Facts of events -/

theorem Ident.constant_inj {r : Role} {i j : Ident r} : i.constant = j.constant ↔ i = j :=
  ⟨constant_injective, congrArg _⟩

theorem Signal.constant_inj {r s : Signal} : r.constant = s.constant ↔ r = s := by
  refine ⟨fun h ↦ ?_, congrArg _⟩
  rw [← Option.some_inj, ← r.ofConstant?_constant, h, s.ofConstant?_constant]

namespace Event

variable {e : Event} {v : VehicleId} {f : ForkId} {l : LaneId} {t tick : Tick}

theorem arrives_mem_facts :
    fact "arrivesAtForkAtTime" v [f.constant] t ∈ e.facts tick ↔
      ∃ time signal?, e = .arrival v f time signal? ∧ t = tick := by
  cases e with
  | arrival w g time signal? =>
    cases signal? <;> simp [facts, fact, Ident.constant_inj, eq_comm, and_assoc]
  | entrance | enterLane | exitLane | departure => simp [facts, fact]

theorem entersLane_mem_facts :
    fact "entersLaneAtTime" v [l.constant] t ∈ e.facts tick ↔
      ∃ time, e = .enterLane v l time ∧ t = tick := by
  cases e with
  | enterLane w k time => simp [facts, fact, Ident.constant_inj, eq_comm, and_assoc]
  | arrival | entrance | exitLane | departure => simp [facts, fact]

theorem leavesLane_mem_facts :
    fact "leavesLaneAtTime" v [l.constant] t ∈ e.facts tick ↔
      ∃ time, e = .exitLane v l time ∧ t = tick := by
  cases e with
  | exitLane w k time => simp [facts, fact, Ident.constant_inj, eq_comm, and_assoc]
  | arrival | entrance | enterLane | departure => simp [facts, fact]

theorem signals_mem_facts {s : Signal} :
    fact "signalsAtForkAtTime" v [s.constant, f.constant] t ∈ e.facts tick ↔
      ∃ time, e = .arrival v f time (some s) ∧ t = tick := by
  cases e with
  | arrival w g time signal? =>
    cases signal? with
    | none => simp [facts, fact]
    | some r =>
      simp [facts, fact, Ident.constant_inj, Signal.constant_inj, eq_comm, and_assoc, and_left_comm]
  | entrance | enterLane | exitLane | departure => simp [facts, fact]

theorem no_signal_iff :
    (∀ a ∈ e.facts tick, a.predicate ≠ "signalsAtForkAtTime") ↔
      ∀ v f time s, e ≠ .arrival v f time (some s) := by
  cases e with
  | arrival w g time signal? => cases signal? <;> simp [facts, fact]
  | entrance | enterLane | exitLane | departure => simp [facts, fact]

theorem no_entrance_iff :
    (∀ a ∈ e.facts tick, a.predicate ≠ "entersForkAtTime") ↔
      ∀ v f time, e ≠ .entrance v f time := by
  cases e with
  | arrival w g time signal? => cases signal? <;> simp [facts, fact]
  | entrance | enterLane | exitLane | departure => simp [facts, fact]

end Event

/-! ## What a ledger knows -/

theorem Event.stay_subset (v : VehicleId) (es : List Event) : stay v es ⊆ es := fun _ he ↦
  (List.mem_filter.1 ((List.rtakeWhile_suffix _ _).subset he)).1

/-- Without a departure, the stay of a vehicle has all its events. -/
theorem Event.mem_stay {v : VehicleId} {es : List Event} (h : .departure v ∉ es) {e : Event} :
    e ∈ stay v es ↔ e ∈ es ∧ e.vehicle = v := by
  have hstays : ∀ e ∈ es.filter fun e ↦ e.vehicle = v, (!e.isDeparture) = true := by
    intro e he
    obtain ⟨hmem, hv⟩ := List.mem_filter.1 he
    cases e with
    | departure w =>
      rw [decide_eq_true_iff] at hv
      exact absurd (hv ▸ hmem) h
    | arrival | entrance | enterLane | exitLane => rfl
  rw [stay, List.rtakeWhile_eq_self_iff.2 hstays, List.mem_filter, decide_eq_true_iff]

namespace Monitor

variable {m : Monitor} {r : Resolution} {es : List Event} {v : VehicleId} {f : ForkId} {l : LaneId}
  {s : Signal} {t : Tick}

theorem mem_history_iff (h : m.ledger.Logs r es) {a : Atom} :
    a ∈ (m.ledger.history v).facts ↔ ∃ e ∈ Event.stay v es, a ∈ e.facts (e.tick r) := by
  rw [h.history_eq, Event.allFacts, List.mem_flatMap]

theorem forall_mem_history_iff (h : m.ledger.Logs r es) {P : Atom → Prop} :
    (∀ a ∈ (m.ledger.history v).facts, P a) ↔
      ∀ e ∈ Event.stay v es, ∀ a ∈ e.facts (e.tick r), P a := by
  rw [h.history_eq, Event.allFacts, List.forall_mem_flatMap]

/-- What one kind of event makes true is known if there was such an event. -/
theorem exists_mem_history_iff (h : m.ledger.Logs r es) {atom : Tick → Atom} {event : Float → Event}
    (hfact : ∀ e t tick, atom t ∈ Event.facts e tick ↔ ∃ time, e = event time ∧ t = tick) :
    (∃ t, atom t ∈ (m.ledger.history v).facts) ↔ ∃ time, event time ∈ Event.stay v es := by
  simp only [mem_history_iff h, hfact]
  constructor
  · rintro ⟨_, _, he, time, rfl, rfl⟩
    exact ⟨time, he⟩
  · rintro ⟨time, he⟩
    exact ⟨_, _, he, time, rfl, rfl⟩

/-- A vehicle waits from its arrivals on as long as it has not entered. -/
theorem waits_iff (h : m.ledger.Logs r es) :
    m.Waits v f t ↔
      (∃ time signal?, .arrival v f time signal? ∈ Event.stay v es ∧ t = r.tick time) ∧
        ∀ w g time, .entrance w g time ∉ Event.stay v es := by
  rw [Waits, mem_history_iff h, forall_mem_history_iff h]
  simp only [Event.arrives_mem_facts, Event.no_entrance_iff]
  refine and_congr ?_ ?_
  · constructor
    · rintro ⟨_, he, time, signal?, rfl, rfl⟩
      exact ⟨time, signal?, he, rfl⟩
    · rintro ⟨time, signal?, he, rfl⟩
      exact ⟨_, he, time, signal?, rfl, rfl⟩
  · exact ⟨fun hnone w g time he ↦ hnone _ he w g time rfl,
      fun hnone e he w g time heq ↦ hnone w g time (heq ▸ he)⟩

theorem shows_iff (h : m.ledger.Logs r es) :
    m.Shows v s f ↔ ∃ time, .arrival v f time (some s) ∈ Event.stay v es :=
  exists_mem_history_iff h fun _ _ _ ↦ Event.signals_mem_facts

theorem showsNothing_iff (h : m.ledger.Logs r es) :
    m.ShowsNothing v ↔ ∀ w g time s, .arrival w g time (some s) ∉ Event.stay v es := by
  rw [ShowsNothing, forall_mem_history_iff h]
  simp only [Event.no_signal_iff]
  exact ⟨fun hnone w g time s he ↦ hnone _ he w g time s rfl,
    fun hnone e he w g time s heq ↦ hnone w g time s (heq ▸ he)⟩

/-- A vehicle is in a lane if it has entered and never left it. -/
theorem isIn_iff (h : m.ledger.Logs r es) :
    m.IsIn v l ↔ (∃ time, .enterLane v l time ∈ Event.stay v es) ∧
      ∀ time, .exitLane v l time ∉ Event.stay v es := by
  rw [IsIn, exists_mem_history_iff h fun _ _ _ ↦ Event.entersLane_mem_facts, ← not_exists,
    exists_mem_history_iff h fun _ _ _ ↦ Event.leavesLane_mem_facts, not_exists]

theorem Sound.mem_inLane_constant_iff (h : m.Sound) {M : Set Atom} (hM : Situation m.facts M) :
    ⟨"inLane", [.symbol v.constant, .symbol l.constant]⟩ ∈ M ↔ m.IsIn v l := by
  rw [h.mem_inLane_iff hM]
  constructor
  · rintro ⟨w, k, hin, hw, hk⟩
    rwa [Ident.constant_injective (Term.symbol.inj hw),
      Ident.constant_injective (Term.symbol.inj hk)]
  · exact fun hin ↦ ⟨v, l, hin, rfl, rfl⟩

/-- A monitor knows no facts but those of events and those about the crossing. -/
theorem Sound.facts_subset (h : m.Sound) (hlogs : m.ledger.Logs r es) :
    m.facts ⊆ Event.allFacts r es ++ (Facts.compile m.topology m.probe).atoms := by
  intro b hb
  rcases h.mem_facts.1 hb with ⟨v, hv⟩ | hgeometry
  · obtain ⟨e, he, hfact⟩ := (mem_history_iff hlogs).1 hv
    exact List.mem_append_left _ (List.mem_flatMap.2 ⟨e, Event.stay_subset v _ he, hfact⟩)
  · exact List.mem_append_right _ hgeometry

end Monitor

/-! ## Solutions -/

namespace Session

/-- A solution is that of a state with the ledger and the crossing that the call leaves behind. -/
theorem exists_of_solved {s : Session} {a : Action} {solution : Solution}
    (h : s.solved? a = some solution) :
    ∃ m, solution = m.solve.1 ∧ (m = s.monitor ∨ ∃ e, m = s.monitor.record e) ∧
      m.ledger = (s.act a).monitor.ledger ∧ m.topology = (s.act a).monitor.topology := by
  cases a with
  | event e =>
    by_cases he : e.isDeparture = true
    · rw [s.solved_departure he] at h
      cases h
    · rw [s.solved_turn he] at h
      cases h
      obtain ⟨_, _, heq⟩ := (s.monitor.record e).solve.2.dispatch_eq (s.monitor.record e).solve.1
      rw [s.act_turn he, heq]
      exact ⟨_, rfl, .inr ⟨e, rfl⟩, rfl, rfl⟩
  | solve =>
    cases h
    exact ⟨s.monitor, rfl, .inl rfl, rfl, rfl⟩
  | attach | setLane | geometry | dispatch => cases h

section YieldRules

variable {settings : Settings} {topology : Topology} {probe : Probe} {clock : Nat → Stamp}
  {m₀ : Monitor} {actions : List Action} {a : Action} {solution : Solution}

/-- In a session with the traffic rules, the program of a solution has the facts of the state that
the call leaves behind. -/
theorem exists_follows_of_solved
    (hmake : Monitor.make settings topology probe yieldText (.stratified standardBudget) clock =
      .ok m₀)
    (hsolved : ((start m₀).run actions).solved? a = some solution) :
    m₀.Follows (((start m₀).run actions).act a).monitor ∧
      ∃ m, m₀.Follows m ∧ solution = m.solve.1 ∧
        m.facts = (((start m₀).run actions).act a).monitor.facts := by
  have hstable := Monitor.stable_follows m₀
  have hwithin := within_run hstable (Monitor.of_make hmake).1.follows actions
  have hleft := (hwithin.act hstable a).monitor
  obtain ⟨m, hsolution, hm, hledger, htopology⟩ := exists_of_solved hsolved
  have hfollows : m₀.Follows m := by
    rcases hm with rfl | ⟨e, rfl⟩
    · exact hwithin.monitor
    · exact hstable.record _ e hwithin.monitor
  refine ⟨hleft, m, hfollows, hsolution, ?_⟩
  rw [Monitor.facts, Monitor.facts, hfollows.1.2.geometry_eq, hleft.1.2.geometry_eq, hledger,
    htopology, hfollows.2.probe, hleft.2.probe]

/-- **The selected model speaks of the state that the call leaves behind.** -/
theorem exists_model_of_solved
    (hmake : Monitor.make settings topology probe yieldText (.stratified standardBudget) clock =
      .ok m₀)
    (hsolved : ((start m₀).run actions).solved? a = some solution)
    (hbudget : ∀ rules, parseProgram solution.program.text = .ok rules →
      evaluate standardBudget rules ≠ .budgetExceeded) :
    let m := (((start m₀).run actions).act a).monitor
    ∃ model, solution.outcome.selected = some model ∧
      (∀ v : VehicleId, ⟨stopPredicate, [.symbol v.constant]⟩ ∈ model ↔ m.MustYield v) ∧
      (∀ v : VehicleId, ⟨goPredicate, [.symbol v.constant]⟩ ∈ model ↔
        m.IsWaiting v ∧ ¬ m.MustYield v) ∧
      ∀ (v : VehicleId) (l : LaneId),
        ⟨"inLane", [.symbol v.constant, .symbol l.constant]⟩ ∈ model ↔ m.IsIn v l := by
  intro m
  obtain ⟨-, hrules, horacle, -⟩ := Monitor.of_make hmake
  obtain ⟨⟨hsound, -⟩, m', ⟨hsound', hsetup⟩, rfl, hfacts⟩ := exists_follows_of_solved hmake hsolved
  obtain ⟨model, houtcome, hmodel⟩ := hsound'.exists_situation (hsetup.rules.trans hrules)
    (hsetup.oracle.trans horacle) hbudget
  rw [hfacts] at hmodel
  refine ⟨model, ?_, fun v ↦ hsound.mem_stop_iff hmodel, fun v ↦ hsound.mem_go_iff hmodel,
    fun v l ↦ hsound.mem_inLane_constant_iff hmodel⟩
  rw [houtcome]
  rfl

end YieldRules

/-! ## Short sessions -/

theorem events_map (es : List Event) : events (es.map .event) = es := by
  simp [events, List.filterMap_map, Function.comp_def, Action.event?]

/-- Events do not change the crossing. -/
theorem topology_run_events (s : Session) (es : List Event) :
    (s.run (es.map .event)).monitor.topology = s.monitor.topology := by
  induction es generalizing s with
  | nil => rfl
  | cons e es ih =>
    obtain ⟨_, _, hact⟩ := s.exists_act_eq (.event e)
    rw [List.map_cons, run_cons, ih, hact]
    dsimp only [Monitor.watch]
    split <;> rfl

section Standard

variable {topology : Topology} {probe : Probe} {clock : Nat → Stamp} {m₀ : Monitor}

/-- After some events, under the standard settings, a monitor knows the facts of these events and
those about its crossing. -/
theorem follows_of_events
    (hmake : Monitor.make .standard topology probe yieldText (.stratified standardBudget) clock =
      .ok m₀)
    (es : List Event) :
    let m := ((start m₀).run (es.map .event)).monitor
    m₀.Follows m ∧ m.topology = topology ∧ m.probe = probe ∧ m.ledger.Logs .standard es ∧
      m.facts ⊆ Event.allFacts .standard es ++ (Facts.compile topology probe).atoms := by
  intro m
  obtain ⟨hfresh, -, -, htopology⟩ := Monitor.of_make hmake
  have hfollows : m₀.Follows m :=
    (within_run (Monitor.stable_follows m₀) hfresh.follows (es.map .event)).monitor
  have hsame : m.topology = topology := (topology_run_events (start m₀) es).trans htopology
  have hprobe : m.probe = probe := hfollows.2.probe.trans (Monitor.probe_of_make hmake)
  have hlogs : m.ledger.Logs .standard es := by
    have hrun := hfresh.logs_run [] (es.map .event)
    rwa [events_map, Monitor.resolution_of_make_standard hmake] at hrun
  have hknown := hfollows.1.facts_subset hlogs
  rw [hsame, hprobe] at hknown
  exact ⟨hfollows, hsame, hprobe, hlogs, hknown⟩

/-- Some events on a small crossing, under the standard settings, are not too much for the standard
budget. -/
theorem exists_solved_of_events
    (hmake : Monitor.make .standard topology probe yieldText (.stratified standardBudget) clock =
      .ok m₀)
    (es : List Event) {e : Event} (he : ¬ e.isDeparture = true)
    (hshort : (Event.allFacts .standard (es ++ [e]) ++
      (Facts.compile topology probe).atoms).length ≤ 180) :
    let s := (start m₀).run (es.map .event)
    (s.act (.event e)).monitor.topology = topology ∧ (s.act (.event e)).monitor.probe = probe ∧
      (s.act (.event e)).monitor.ledger.Logs .standard (es ++ [e]) ∧
      ∃ solution, s.solved? (.event e) = some solution ∧
        ∀ rules, parseProgram solution.program.text = .ok rules →
          evaluate standardBudget rules ≠ .budgetExceeded := by
  intro s
  have hact : s.act (.event e) = (start m₀).run ((es ++ [e]).map .event) := by
    rw [List.map_append, run_append]
    rfl
  obtain ⟨-, htopology, hprobe, hlogs, hknown⟩ := follows_of_events hmake (es ++ [e])
  rw [← hact] at htopology hprobe hlogs hknown
  obtain ⟨-, m, ⟨hsound, hsetup⟩, hsolution, hfacts⟩ :=
    exists_follows_of_solved hmake (s.solved_turn he)
  refine ⟨htopology, hprobe, hlogs, _, s.solved_turn he, fun rules hparse ↦ ?_⟩
  rw [hsolution] at hparse
  rw [← hfacts] at hknown
  exact hsound.evaluate_ne_budgetExceeded (hsetup.rules.trans (Monitor.of_make hmake).2.1) hknown
    hshort hparse

end Standard

end Session

/-! ## A road

A fork, an exit, and a straight lane between them. -/

namespace Road

def west : ForkId := ⟨"west", by decide⟩

def east : ExitId := ⟨"east", by decide⟩

def lane : LaneId := .between west east

def van : VehicleId := ⟨"van", by decide⟩

def bus : VehicleId := ⟨"bus", by decide⟩

def topology : Topology :=
  .after [.addFork west ⟨-1000, 0, 0⟩ ⟨1, 0, 0⟩, .addExit east ⟨1000, 0, 0⟩ ⟨1, 0, 0⟩,
    .connect west east, .setLane west east true]

/-- No two lanes overlap. -/
def probe : Probe := fun _ _ ↦ false

theorem atoms_compile : (Facts.compile topology probe).atoms =
    [Facts.relate "laneFromTo" [lane.constant, west.constant, east.constant],
      Facts.relate "laneCorrectSignal" [lane.constant, Signal.off.constant],
      Facts.relate "overlaps" [lane.constant, lane.constant]] := by
  decide +kernel

theorem exists_make :
    ∃ m₀, Monitor.make .standard topology probe yieldText (.stratified standardBudget)
      (fun _ ↦ .ofText "") = .ok m₀ :=
  Monitor.exists_make_standard _ _ _ _ _

/-- The van arrives, and the bus a second later. -/
def arrivals : List Event := [.arrival van west 1 none, .arrival bus west 2 none]

section

variable {m : Monitor} {v : VehicleId} {f : ForkId} {l : LaneId} {t : Tick}
  (hlogs : m.ledger.Logs .standard arrivals)
include hlogs

theorem waits_arrivals_iff : m.Waits v f t ↔
    f = west ∧ (v = van ∧ t = Resolution.standard.tick 1 ∨
      v = bus ∧ t = Resolution.standard.tick 2) := by
  have hstay : ∀ {v e}, e ∈ Event.stay v arrivals ↔ e ∈ arrivals ∧ e.vehicle = v :=
    Event.mem_stay (by simp [arrivals])
  rw [Monitor.waits_iff hlogs]
  simp only [hstay]
  constructor
  · rintro ⟨⟨time, signal?, ⟨he, -⟩, rfl⟩, -⟩
    rcases List.mem_pair.1 he with he | he
    · cases he
      exact ⟨rfl, .inl ⟨rfl, rfl⟩⟩
    · cases he
      exact ⟨rfl, .inr ⟨rfl, rfl⟩⟩
  · rintro ⟨rfl, ⟨rfl, rfl⟩ | ⟨rfl, rfl⟩⟩
    · exact ⟨⟨1, none, ⟨List.mem_pair.2 (.inl rfl), rfl⟩, rfl⟩, by simp [arrivals]⟩
    · exact ⟨⟨2, none, ⟨List.mem_pair.2 (.inr rfl), rfl⟩, rfl⟩, by simp [arrivals]⟩

theorem not_isIn_arrivals : ¬ m.IsIn v l := by
  rw [Monitor.isIn_iff hlogs]
  rintro ⟨⟨time, he⟩, -⟩
  simpa [arrivals] using Event.stay_subset v _ he

/-- First come, first served. -/
theorem mustYield_arrivals_iff : m.MustYield v ↔ v = bus := by
  have hlt : Resolution.standard.tick 1 < Resolution.standard.tick 2 := by decide +kernel
  constructor
  · rintro ⟨f, t, hwaits, hreason⟩
    obtain ⟨-, ⟨rfl, rfl⟩ | ⟨rfl, -⟩⟩ := (waits_arrivals_iff hlogs).1 hwaits
    · -- the van comes first, and no lane is in use
      rcases hreason with ⟨w, g, u, hw, hu⟩ | ⟨w, g, hne, hw, -⟩ | ⟨l, k, w, -, -, -, hin⟩
      · obtain ⟨-, ⟨-, rfl⟩ | ⟨-, rfl⟩⟩ := (waits_arrivals_iff hlogs).1 hw
        · exact absurd hu Int64.lt_irrefl
        · exact absurd hlt (Int64.lt_asymm hu)
      · obtain ⟨-, ⟨rfl, -⟩ | ⟨-, heq⟩⟩ := (waits_arrivals_iff hlogs).1 hw
        · exact absurd rfl hne
        · exact absurd heq (Int64.ne_of_lt hlt)
      · exact absurd hin (not_isIn_arrivals hlogs)
    · rfl
  · rintro rfl
    exact ⟨west, _, (waits_arrivals_iff hlogs).2 ⟨rfl, .inr ⟨rfl, rfl⟩⟩, .inl ⟨van, west, _,
      (waits_arrivals_iff hlogs).2 ⟨rfl, .inl ⟨rfl, rfl⟩⟩, hlt⟩⟩

end

end Road

/-! ## The arbiter in a session -/

/-- **The traffic rules are the arbiter.**  Take a monitor with the rule file and the built-in
oracle, in any state that it reaches or right after it has recorded an event there, and suppose that
the standard budget is enough for its program.  Then a solve gives exactly one model, and in it

* a vehicle must stop exactly if it must yield,
* a vehicle may go exactly if it waits and need not stop,
* so that every waiting vehicle gets exactly one of the two verdicts, and
* no verdict is about anything but a waiting vehicle. -/
theorem arbitrates_of_session {settings : Settings} {topology : Topology} {probe : Probe}
    {clock : Nat → Stamp} {m₀ : Monitor}
    (hmake : Monitor.make settings topology probe yieldText (.stratified standardBudget) clock =
      .ok m₀)
    (actions : List Action) {m : Monitor}
    (hm : m = ((Session.start m₀).run actions).monitor ∨
      ∃ e, m = ((Session.start m₀).run actions).monitor.record e)
    (hbudget : ∀ rules, parseProgram m.program.text = .ok rules →
      evaluate standardBudget rules ≠ .budgetExceeded) :
    ∃ model, m.solve.1.outcome = .models [model] ∧
      (∀ v : VehicleId, ⟨stopPredicate, [.symbol v.constant]⟩ ∈ model ↔ m.MustYield v) ∧
      (∀ v : VehicleId, ⟨goPredicate, [.symbol v.constant]⟩ ∈ model ↔
        m.IsWaiting v ∧ ⟨stopPredicate, [.symbol v.constant]⟩ ∉ model) ∧
      (∀ v : VehicleId, m.IsWaiting v → Xor (⟨stopPredicate, [.symbol v.constant]⟩ ∈ model)
        (⟨goPredicate, [.symbol v.constant]⟩ ∈ model)) ∧
      ∀ a ∈ model, a.predicate = stopPredicate ∨ a.predicate = goPredicate →
        ∃ v, m.IsWaiting v ∧ a.args = [.symbol v.constant] := by
  obtain ⟨hfresh, hrules, horacle, -⟩ := Monitor.of_make hmake
  have hstable := Monitor.stable_follows m₀
  have hreached := (Session.within_run hstable hfresh.follows actions).monitor
  have hfollows : m₀.Follows m := by
    rcases hm with rfl | ⟨e, rfl⟩
    · exact hreached
    · exact hstable.record _ e hreached
  obtain ⟨hsound, hsame⟩ := hfollows
  obtain ⟨model, houtcome, hmodel⟩ := hsound.exists_situation (hsame.rules.trans hrules)
    (hsame.oracle.trans horacle) hbudget
  have hstop : ∀ v : VehicleId, ⟨stopPredicate, [.symbol v.constant]⟩ ∈ model ↔ m.MustYield v :=
    fun v ↦ hsound.mem_stop_iff hmodel
  have hgo : ∀ v : VehicleId, ⟨goPredicate, [.symbol v.constant]⟩ ∈ model ↔
      m.IsWaiting v ∧ ⟨stopPredicate, [.symbol v.constant]⟩ ∉ model := by
    intro v
    rw [hstop]
    exact hsound.mem_go_iff hmodel
  refine ⟨model, houtcome, hstop, hgo, fun v hwaiting ↦ ?_, fun a ha hverdict ↦ ?_⟩
  · by_cases hv : ⟨stopPredicate, [.symbol v.constant]⟩ ∈ model
    · exact .inl ⟨hv, fun hgoes ↦ ((hgo v).1 hgoes).2 hv⟩
    · exact .inr ⟨(hgo v).2 ⟨hwaiting, hv⟩, hv⟩
  · exact hsound.exists_isWaiting_of_verdict hmodel ha hverdict

/-- The van has arrived before the bus, so the bus must stop and the van may go. -/
theorem arbitrates_of_session_arrivals :
    ∃ (m₀ : Monitor) (model : Model),
      let m := ((Session.start m₀).run (Road.arrivals.map .event)).monitor
      Monitor.make .standard Road.topology Road.probe yieldText (.stratified standardBudget)
          (fun _ ↦ .ofText "") = .ok m₀ ∧
        m.solve.1.outcome = .models [model] ∧ m.IsWaiting Road.van ∧ m.IsWaiting Road.bus ∧
        ⟨stopPredicate, [.symbol Road.bus.constant]⟩ ∈ model ∧
        ⟨goPredicate, [.symbol Road.bus.constant]⟩ ∉ model ∧
        ⟨goPredicate, [.symbol Road.van.constant]⟩ ∈ model ∧
        ⟨stopPredicate, [.symbol Road.van.constant]⟩ ∉ model := by
  obtain ⟨m₀, hmake⟩ := Road.exists_make
  obtain ⟨⟨hsound, hsetup⟩, -, -, hlogs, hknown⟩ :=
    Session.follows_of_events hmake Road.arrivals
  obtain ⟨model, houtcome, hstop, hgo, -⟩ := arbitrates_of_session hmake _ (.inl rfl) fun _ ↦
    hsound.evaluate_ne_budgetExceeded (hsetup.rules.trans (Monitor.of_make hmake).2.1) hknown
      (by decide +kernel)
  have hvan : ((Session.start m₀).run (Road.arrivals.map .event)).monitor.IsWaiting Road.van :=
    ⟨Road.west, _, (Road.waits_arrivals_iff hlogs).2 ⟨rfl, .inl ⟨rfl, rfl⟩⟩⟩
  have hbus : ((Session.start m₀).run (Road.arrivals.map .event)).monitor.IsWaiting Road.bus :=
    ⟨Road.west, _, (Road.waits_arrivals_iff hlogs).2 ⟨rfl, .inr ⟨rfl, rfl⟩⟩⟩
  have hstops := (hstop Road.bus).2 ((Road.mustYield_arrivals_iff hlogs).2 rfl)
  have hfree : ⟨stopPredicate, [.symbol Road.van.constant]⟩ ∉ model := fun hmem ↦
    absurd ((Road.mustYield_arrivals_iff hlogs).1 ((hstop Road.van).1 hmem)) (by decide)
  exact ⟨m₀, model, hmake, houtcome, hvan, hbus, hstops, fun hgoes ↦ ((hgo _).1 hgoes).2 hstops,
    (hgo _).2 ⟨hvan, hfree⟩, hfree⟩

end RightOfWay
