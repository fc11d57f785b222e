import RightOfWay.Proofs.Arbitration.Compilation
import RightOfWay.Proofs.Crossing.Consistency
import RightOfWay.Proofs.Yielding.Turns

/-!
# Barred lanes

A vehicle must not enter a lane that crosses one in use.  The rules forbid this for the lanes that
the vehicle may take, and these depend on the signal that it has shown.

* A vehicle may take the lanes from its fork that ask for a signal which it has shown there, or all
  of them if it has shown none (`Monitor.mayTake_iff`).
* If each lane from the fork is barred by a vehicle in a lane that overlaps it, then this keeps the
  waiting vehicle from going only if there is a lane that it may take
  (`Monitor.Barred.mustYield_iff`, `barred_of_session`).
* A signal that no lane asks for leaves nothing to take, and so a van goes (`barred_may_go`).
-/

set_option autoImplicit false

namespace RightOfWay

/-! ## Lanes that a vehicle may take -/

namespace Facts

variable {t : Topology} {probe : Probe} {l : LaneId} {f : ForkId} {e : ExitId} {s : Signal}
  {a : Atom}

/-- Of these two relations, the facts about a crossing have what its lanes say. -/
theorem mem_compile_of_lane (ha : a.predicate = "laneFromTo" ∨ a.predicate = "laneCorrectSignal") :
    a ∈ (compile t probe).atoms ↔ ∃ lane ∈ t.lanes.values, a ∈ ofLane lane := by
  constructor
  · intro hmem
    rcases List.mem_append.1 hmem with hmem | hoverlaps
    · rcases List.mem_append.1 hmem with hright | hlane
      · obtain ⟨f, g, rfl⟩ := eq_relate_of_mem_ofForks hright
        simp [relate] at ha
      · exact List.mem_flatMap.1 hlane
    · obtain ⟨l, k, rfl⟩ := eq_relate_of_mem_ofOverlaps hoverlaps
      simp [relate] at ha
  · exact fun hlane ↦ List.mem_append_left _ (List.mem_append_right _ (List.mem_flatMap.2 hlane))

theorem laneFromTo_mem_compile :
    relate "laneFromTo" [l.constant, f.constant, e.constant] ∈ (compile t probe).atoms ↔
      ∃ lane ∈ t.lanes.values, lane.id = l ∧ lane.fork = f ∧ lane.exit = e := by
  rw [mem_compile_of_lane (.inl rfl)]
  simp [ofLane, relate, Ident.constant_inj, eq_comm]

theorem laneCorrectSignal_mem_compile :
    relate "laneCorrectSignal" [l.constant, s.constant] ∈ (compile t probe).atoms ↔
      ∃ lane ∈ t.lanes.values, lane.id = l ∧ lane.requiredSignal = s := by
  rw [mem_compile_of_lane (.inr rfl)]
  simp [ofLane, relate, Ident.constant_inj, Signal.constant_inj, eq_comm]

end Facts

theorem Topology.Consistent.lane_unique {t : Topology} (h : t.Consistent) {lane lane' : Lane}
    (hlane : lane ∈ t.lanes.values) (hlane' : lane' ∈ t.lanes.values) (hid : lane.id = lane'.id) :
    lane = lane' := by
  obtain ⟨id, hget⟩ := mem_values.1 hlane
  obtain ⟨id', hget'⟩ := mem_values.1 hlane'
  rw [← h.lane_id id lane hget, hid, h.lane_id id' lane' hget', hget'] at hget
  exact (Option.some.inj hget).symm

namespace Monitor

variable {m : Monitor} {v : VehicleId} {f : ForkId} {l : LaneId}

theorem mayTake_iff (h : m.topology.Consistent) :
    m.MayTake v f l ↔ ∃ lane ∈ m.topology.lanes.values, lane.id = l ∧ lane.fork = f ∧
      (m.Shows v lane.requiredSignal f ∨ m.ShowsNothing v) := by
  simp only [MayTake, Compiled, Facts.laneFromTo_mem_compile, Facts.laneCorrectSignal_mem_compile]
  constructor
  · rintro ⟨⟨e, lane, hlane, rfl, rfl, -⟩, ⟨s, ⟨lane', hlane', hid, rfl⟩, hshows⟩ | hnone⟩
    · -- the facts about where a lane leads and about its signal are of one lane
      rw [h.lane_unique hlane' hlane hid] at hshows
      exact ⟨lane, hlane, rfl, rfl, .inl hshows⟩
    · exact ⟨lane, hlane, rfl, rfl, .inr hnone⟩
  · rintro ⟨lane, hlane, rfl, rfl, hsignal⟩
    refine ⟨⟨_, lane, hlane, rfl, rfl, rfl⟩, hsignal.imp_left fun hshows ↦ ?_⟩
    exact ⟨_, ⟨lane, hlane, rfl, rfl⟩, hshows⟩

/-- The vehicle has shown no signal, or one that a lane from the fork asks for. -/
def FindsLane (m : Monitor) (v : VehicleId) (f : ForkId) : Prop :=
  m.ShowsNothing v ∨
    ∃ lane ∈ m.topology.lanes.values, lane.fork = f ∧ m.Shows v lane.requiredSignal f

/-- The vehicle waits, and another one was there before, or one that arrived at the same tick is on
the right. -/
def Outranked (m : Monitor) (v : VehicleId) : Prop :=
  ∃ f t, m.Waits v f t ∧
    ((∃ w g u, m.Waits w g u ∧ u < t) ∨
      ∃ w g, w ≠ v ∧ m.Waits w g t ∧ m.Compiled "isOnRightOf" [g.constant, f.constant])

/-- The vehicle waits at this fork only, lanes leave from there, and each of them overlaps a lane
that another vehicle is in. -/
structure Barred (m : Monitor) (v : VehicleId) (f : ForkId) : Prop where
  waits : ∃ t, m.Waits v f t
  only : ∀ g t, m.Waits v g t → g = f
  exists_lane : ∃ lane ∈ m.topology.lanes.values, lane.fork = f
  taken : ∀ lane ∈ m.topology.lanes.values, lane.fork = f →
    ∃ k w, m.Compiled "overlaps" [lane.id.constant, k.constant] ∧ w ≠ v ∧ m.IsIn w k

namespace Barred

/-- A vehicle that may take a lane may take a lane that is barred. -/
theorem findsLane_iff (h : m.Barred v f) (htopology : m.topology.Consistent) :
    m.FindsLane v f ↔ ∃ l, m.MayTake v f l := by
  simp only [mayTake_iff htopology]
  constructor
  · rintro (hnone | ⟨lane, hlane, hfork, hshows⟩)
    · obtain ⟨lane, hlane, hfork⟩ := h.exists_lane
      exact ⟨_, lane, hlane, rfl, hfork, .inr hnone⟩
    · exact ⟨_, lane, hlane, rfl, hfork, .inl hshows⟩
  · rintro ⟨_, lane, hlane, -, hfork, hshows | hnone⟩
    · exact .inr ⟨lane, hlane, hfork, hshows⟩
    · exact .inl hnone

theorem mustYield_iff (h : m.Barred v f) (htopology : m.topology.Consistent) :
    m.MustYield v ↔ m.Outranked v ∨ m.FindsLane v f := by
  rw [h.findsLane_iff htopology]
  constructor
  · rintro ⟨g, t, hwaits, hearlier | hright | ⟨l, k, w, hmay, -⟩⟩
    · exact .inl ⟨g, t, hwaits, .inl hearlier⟩
    · exact .inl ⟨g, t, hwaits, .inr hright⟩
    · exact .inr ⟨l, h.only g t hwaits ▸ hmay⟩
  · rintro (⟨g, t, hwaits, hearlier | hright⟩ | ⟨l, hmay⟩)
    · exact ⟨g, t, hwaits, .inl hearlier⟩
    · exact ⟨g, t, hwaits, .inr (.inl hright)⟩
    · obtain ⟨t, hwaits⟩ := h.waits
      obtain ⟨lane, hlane, rfl, hfork, -⟩ := (mayTake_iff htopology).1 hmay
      obtain ⟨k, w, hoverlaps, hne, hin⟩ := h.taken lane hlane hfork
      exact ⟨f, t, hwaits, .inr (.inr ⟨_, k, w, hmay, hoverlaps, hne, hin⟩)⟩

theorem isWaiting (h : m.Barred v f) : m.IsWaiting v := by
  obtain ⟨t, hwaits⟩ := h.waits
  exact ⟨f, t, hwaits⟩

end Barred
end Monitor

/-- **Lanes in use keep a vehicle from going only if it may take one of them.**  Take any session
with the traffic rules and the built-in oracle, for a crossing that the operations have made, and a
call in it that gives a solution, with a program that the standard budget is enough for.  If all
lanes from the fork of a waiting vehicle are barred in the state after the call, then the selected
model lets it go unless another vehicle comes first, or it has shown no signal, or it has shown one
that a lane from there asks for. -/
theorem barred_of_session {settings : Settings} {topology : Topology} {probe : Probe}
    {clock : Nat → Stamp} {m₀ : Monitor} (hbuilt : topology.Built)
    (hmake : Monitor.make settings topology probe yieldText (.stratified standardBudget) clock =
      .ok m₀)
    (actions : List Action) {a : Action} {solution : Solution}
    (hsolved : ((Session.start m₀).run actions).solved? a = some solution)
    (hbudget : ∀ rules, parseProgram solution.program.text = .ok rules →
      evaluate standardBudget rules ≠ .budgetExceeded) :
    let m := (((Session.start m₀).run actions).act a).monitor
    ∃ model, solution.outcome.selected = some model ∧ ∀ v f, m.Barred v f →
      (⟨goPredicate, [.symbol v.constant]⟩ ∈ model ↔ ¬ m.Outranked v ∧ ¬ m.FindsLane v f) := by
  intro m
  obtain ⟨model, hselected, -, hgo, -⟩ := Session.exists_model_of_solved hmake hsolved hbudget
  obtain rfl := (Monitor.of_make hmake).2.2.2
  have htopology : m.topology.Built :=
    ((Session.within_run Monitor.stable_built hbuilt actions).act Monitor.stable_built a).monitor
  refine ⟨model, hselected, fun v f hbarred ↦ ?_⟩
  rw [hgo, hbarred.mustYield_iff htopology.consistent, not_or]
  exact and_iff_right hbarred.isWaiting

namespace Road

theorem built : topology.Built := Topology.built_after _

/-- The lanes of the road, as far as they matter here. -/
theorem map_values_lanes :
    topology.lanes.values.map (fun l ↦ (l.id, l.fork, l.requiredSignal)) =
      [(lane, west, .off)] := by
  decide +kernel

theorem eq_of_mem_lanes {l : Lane} (h : l ∈ topology.lanes.values) :
    l.id = lane ∧ l.fork = west ∧ l.requiredSignal = .off := by
  have hmem := List.mem_map_of_mem (f := fun l ↦ (l.id, l.fork, l.requiredSignal)) h
  rw [map_values_lanes, List.mem_singleton] at hmem
  simpa using hmem

theorem exists_mem_lanes : ∃ l, l ∈ topology.lanes.values := by
  refine List.exists_mem_of_ne_nil _ fun hnil ↦ ?_
  have hmap := map_values_lanes
  rw [hnil] at hmap
  cases hmap

/-- A bus that has entered the crossing is in the lane. -/
def busEvents : List Event :=
  [.arrival bus west 1 none, .entrance bus west 2, .enterLane bus lane 3]

section

variable {m : Monitor} {signal? : Option Signal} {v : VehicleId} {f : ForkId} {t : Tick}

theorem mem_stay {e : Event} : e ∈ Event.stay v (busEvents ++ [.arrival van west 4 signal?]) ↔
    (v = bus ∧ e ∈ busEvents) ∨ v = van ∧ e = .arrival van west 4 signal? := by
  have hbus : ∀ e ∈ busEvents, e.vehicle = bus := by simp [busEvents, Event.vehicle]
  rw [Event.mem_stay (by simp [busEvents]), List.mem_append, List.mem_singleton]
  constructor
  · rintro ⟨he | rfl, rfl⟩
    · exact .inl ⟨hbus e he, he⟩
    · exact .inr ⟨rfl, rfl⟩
  · rintro (⟨rfl, he⟩ | ⟨rfl, rfl⟩)
    · exact ⟨.inl he, hbus e he⟩
    · exact ⟨.inr rfl, rfl⟩

theorem bus_ne_van : bus ≠ van := by decide

variable (hlogs : m.ledger.Logs .standard (busEvents ++ [.arrival van west 4 signal?]))
include hlogs

theorem waits_iff : m.Waits v f t ↔ v = van ∧ f = west ∧ t = Resolution.standard.tick 4 := by
  rw [Monitor.waits_iff hlogs]
  simp only [mem_stay]
  constructor
  · rintro ⟨⟨_, _, ⟨hbus, -⟩ | ⟨hvan, he⟩, rfl⟩, hentered⟩
    · exact absurd (.inl ⟨hbus, by simp [busEvents]⟩) (hentered bus west 2)
    · cases he
      exact ⟨hvan, rfl, rfl⟩
  · rintro ⟨rfl, rfl, rfl⟩
    exact ⟨⟨4, signal?, .inr ⟨rfl, rfl⟩, rfl⟩, by simp [bus_ne_van.symm]⟩

theorem isIn_bus : m.IsIn bus lane := by
  rw [Monitor.isIn_iff hlogs]
  refine ⟨⟨3, mem_stay.2 (.inl ⟨rfl, by simp [busEvents]⟩)⟩, fun time hleft ↦ ?_⟩
  rw [mem_stay] at hleft
  simp [busEvents] at hleft

theorem findsLane_iff (htopology : m.topology = topology) :
    m.FindsLane van west ↔ signal? = none ∨ signal? = some .off := by
  have hvan : ∀ e, e ∈ Event.stay van (busEvents ++ [.arrival van west 4 signal?]) ↔
      e = .arrival van west 4 signal? := by
    intro e
    rw [mem_stay]
    simp [bus_ne_van.symm]
  have hshows : ∀ s, m.Shows van s west ↔ signal? = some s := by
    intro s
    rw [Monitor.shows_iff hlogs]
    simp [hvan, eq_comm]
  have hnone : m.ShowsNothing van ↔ signal? = none := by
    rw [Monitor.showsNothing_iff hlogs, Option.eq_none_iff_forall_ne_some]
    simp only [hvan]
    constructor
    · rintro hnone s rfl
      exact hnone van west 4 s rfl
    · intro hnone w g time s he
      cases he
      exact hnone s rfl
  rw [Monitor.FindsLane, hnone, htopology]
  refine or_congr_right ⟨?_, fun hoff ↦ ?_⟩
  · rintro ⟨l, hl, -, hl'⟩
    rwa [(eq_of_mem_lanes hl).2.2, hshows] at hl'
  · obtain ⟨l, hl⟩ := exists_mem_lanes
    obtain ⟨-, hfork, hsignal⟩ := eq_of_mem_lanes hl
    refine ⟨l, hl, hfork, ?_⟩
    rwa [hsignal, hshows]

/-- A bus that is in the only lane bars a van, and nobody outranks this. -/
theorem barred (htopology : m.topology = topology) (hprobe : m.probe = probe) :
    m.Barred van west ∧ ¬ m.Outranked van := by
  have hoverlaps : m.Compiled "overlaps" [lane.constant, lane.constant] := by
    rw [Monitor.Compiled, htopology, hprobe, atoms_compile]
    simp
  refine ⟨⟨⟨_, (waits_iff hlogs).2 ⟨rfl, rfl, rfl⟩⟩, fun g t hg ↦ ((waits_iff hlogs).1 hg).2.1,
    ?_, ?_⟩, ?_⟩
  · obtain ⟨l, hl⟩ := exists_mem_lanes
    exact ⟨l, htopology ▸ hl, (eq_of_mem_lanes hl).2.1⟩
  · intro l hl _
    rw [htopology] at hl
    rw [(eq_of_mem_lanes hl).1]
    exact ⟨lane, bus, hoverlaps, bus_ne_van, isIn_bus hlogs⟩
  · rintro ⟨f, t, hv, ⟨w, g, u, hw, hlt⟩ | ⟨w, g, hne, hw, -⟩⟩
    · rw [((waits_iff hlogs).1 hv).2.2, ((waits_iff hlogs).1 hw).2.2] at hlt
      exact Int64.lt_irrefl hlt
    · exact hne ((waits_iff hlogs).1 hw).1

end

end Road

/-- A bus is in the only lane, and a van that shows no signal may not go. -/
theorem barred_of_session_silent :
    ∃ (m₀ : Monitor) (solution : Solution) (model : Model),
      let s := (Session.start m₀).run (Road.busEvents.map .event)
      Monitor.make .standard Road.topology Road.probe yieldText (.stratified standardBudget)
          (fun _ ↦ .ofText "") = .ok m₀ ∧
        s.solved? (.event (.arrival Road.van Road.west 4 none)) = some solution ∧
        solution.outcome.selected = some model ∧
        ⟨goPredicate, [.symbol Road.van.constant]⟩ ∉ model := by
  obtain ⟨m₀, hmake⟩ := Road.exists_make
  obtain ⟨htopology, hprobe, hlogs, solution, hsolved, hbudget⟩ :=
    Session.exists_solved_of_events hmake Road.busEvents
      (e := .arrival Road.van Road.west 4 none) nofun (by decide +kernel)
  obtain ⟨hbarred, -⟩ := Road.barred hlogs htopology hprobe
  obtain ⟨model, hselected, hgo⟩ := barred_of_session Road.built hmake _ hsolved hbudget
  exact ⟨m₀, solution, model, hmake, hsolved, hselected,
    fun hmem ↦ ((hgo _ _ hbarred).1 hmem).2 ((Road.findsLane_iff hlogs htopology).2 (.inl rfl))⟩

/-- A bus is in the only lane, which leads straight ahead, and a van that shows that it turns left
may go. -/
theorem barred_may_go :
    ∃ (m₀ : Monitor) (solution : Solution) (model : Model),
      let s := (Session.start m₀).run (Road.busEvents.map .event)
      let arrives : Action := .event (.arrival Road.van Road.west 4 (some .left))
      let m := (s.act arrives).monitor
      Monitor.make .standard Road.topology Road.probe yieldText (.stratified standardBudget)
          (fun _ ↦ .ofText "") = .ok m₀ ∧
        s.solved? arrives = some solution ∧ solution.outcome.selected = some model ∧
        m.Barred Road.van Road.west ∧ ⟨goPredicate, [.symbol Road.van.constant]⟩ ∈ model := by
  obtain ⟨m₀, hmake⟩ := Road.exists_make
  obtain ⟨htopology, hprobe, hlogs, solution, hsolved, hbudget⟩ :=
    Session.exists_solved_of_events hmake Road.busEvents
      (e := .arrival Road.van Road.west 4 (some .left)) nofun (by decide +kernel)
  obtain ⟨hbarred, houtranked⟩ := Road.barred hlogs htopology hprobe
  obtain ⟨model, hselected, -, hgo, -⟩ := Session.exists_model_of_solved hmake hsolved hbudget
  refine ⟨m₀, solution, model, hmake, hsolved, hselected, hbarred, ?_⟩
  refine (hgo _).2 ⟨hbarred.isWaiting, ?_⟩
  rw [hbarred.mustYield_iff (htopology ▸ Road.built.consistent)]
  rintro (hrank | hfind)
  · exact houtranked hrank
  · simpa using (Road.findsLane_iff hlogs htopology).1 hfind

end RightOfWay
