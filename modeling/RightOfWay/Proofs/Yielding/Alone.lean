import RightOfWay.Proofs.Yielding.Turns

/-!
# Vehicles on their own

First come, first served: a vehicle must stop if a waiting vehicle was there before.  The rules do
not ask for another one, and so a vehicle that has reported its arrival more than once can be in its
own way.

* A vehicle that waits alone must yield exactly if its arrivals are of different ticks
  (`Monitor.mustYield_alone_iff`).
* So this is when it is told to stop (`alone_of_session`), as is a van that arrives twice
  (`alone_must_stop`).
-/

set_option autoImplicit false

namespace RightOfWay

namespace Monitor

variable {m : Monitor} {v : VehicleId}

/-- All arrivals since which the vehicle waits are of one tick. -/
def ArrivedAtOnce (m : Monitor) (v : VehicleId) : Prop :=
  ∀ f t g u, m.Waits v f t → m.Waits v g u → t = u

/-- A vehicle that waits alone has itself for a rival if it arrived more than once. -/
theorem mustYield_alone_iff (halone : ∀ w, m.IsWaiting w → w = v)
    (hfree : ∀ w l, m.IsIn w l → w = v) : m.MustYield v ↔ ¬ m.ArrivedAtOnce v := by
  constructor
  · rintro ⟨f, t, hwaits, ⟨w, g, u, hwaits', hlt⟩ | ⟨w, g, hne, hwaits', -⟩ |
      ⟨l, k, w, -, -, hne, hin⟩⟩ honce
    · obtain rfl := halone w ⟨g, u, hwaits'⟩
      rw [honce f t g u hwaits hwaits'] at hlt
      exact Int64.lt_irrefl hlt
    · exact hne (halone w ⟨g, t, hwaits'⟩)
    · exact hne (hfree w k hin)
  · intro htwice
    simp only [ArrivedAtOnce, not_forall] at htwice
    obtain ⟨f, t, g, u, hwaits, hwaits', hne⟩ := htwice
    rcases Int64.lt_or_lt_of_ne hne with hlt | hlt
    · exact ⟨g, u, hwaits', .inl ⟨v, f, t, hwaits, hlt⟩⟩
    · exact ⟨f, t, hwaits, .inl ⟨v, g, u, hwaits', hlt⟩⟩

/-- A vehicle that has arrived twice, while nothing else has happened, is alone. -/
theorem alone_of_two_arrivals {r : Resolution} {f : ForkId} {time time' : Float}
    (h : m.ledger.Logs r [.arrival v f time none, .arrival v f time' none]) :
    m.IsWaiting v ∧ (∀ w, m.IsWaiting w → w = v) ∧ (∀ w l, ¬ m.IsIn w l) ∧
      (m.ArrivedAtOnce v ↔ r.tick time = r.tick time') := by
  have hstay : ∀ w e, e ∈ Event.stay w [.arrival v f time none, .arrival v f time' none] ↔
      (e = .arrival v f time none ∨ e = .arrival v f time' none) ∧ e.vehicle = w := by
    intro w e
    rw [Event.mem_stay (by simp)]
    simp
  have hwaits : ∀ w g t, m.Waits w g t ↔
      w = v ∧ g = f ∧ (t = r.tick time ∨ t = r.tick time') := by
    intro w g t
    rw [waits_iff h]
    simp only [hstay]
    constructor
    · rintro ⟨⟨_, _, ⟨he | he, -⟩, rfl⟩, -⟩
      · cases he
        exact ⟨rfl, rfl, .inl rfl⟩
      · cases he
        exact ⟨rfl, rfl, .inr rfl⟩
    · rintro ⟨rfl, rfl, ht⟩
      refine ⟨?_, by simp⟩
      rcases ht with rfl | rfl
      · exact ⟨time, none, ⟨.inl rfl, rfl⟩, rfl⟩
      · exact ⟨time', none, ⟨.inr rfl, rfl⟩, rfl⟩
  refine ⟨⟨f, _, (hwaits _ _ _).2 ⟨rfl, rfl, .inl rfl⟩⟩, ?_, fun w l ↦ ?_, fun honce ↦ ?_, ?_⟩
  · rintro w ⟨g, t, hw⟩
    exact ((hwaits w g t).1 hw).1
  · rw [isIn_iff h]
    simp [hstay]
  · exact honce f _ f _ ((hwaits _ _ _).2 ⟨rfl, rfl, .inl rfl⟩)
      ((hwaits _ _ _).2 ⟨rfl, rfl, .inr rfl⟩)
  · intro hsame g t g' u hg hg'
    obtain ⟨-, -, ht⟩ := (hwaits v g t).1 hg
    obtain ⟨-, -, hu⟩ := (hwaits v g' u).1 hg'
    rw [hsame, or_self] at ht hu
    rw [ht, hu]

end Monitor

/-- **A vehicle on its own yields to itself exactly if it has arrived at different ticks.**  Take
any session with the traffic rules and the built-in oracle, and a call in it that gives a solution,
with a program that the standard budget is enough for.  If a single vehicle waits in the state after
the call, and no other one is in a lane, then the selected model lets it go if all its arrivals are
of one tick, and makes it stop otherwise. -/
theorem alone_of_session {settings : Settings} {topology : Topology} {probe : Probe}
    {clock : Nat → Stamp} {m₀ : Monitor}
    (hmake : Monitor.make settings topology probe yieldText (.stratified standardBudget) clock =
      .ok m₀)
    (actions : List Action) {a : Action} {solution : Solution}
    (hsolved : ((Session.start m₀).run actions).solved? a = some solution)
    (hbudget : ∀ rules, parseProgram solution.program.text = .ok rules →
      evaluate standardBudget rules ≠ .budgetExceeded) :
    let m := (((Session.start m₀).run actions).act a).monitor
    ∃ model, solution.outcome.selected = some model ∧
      ∀ v, m.IsWaiting v → (∀ w, m.IsWaiting w → w = v) → (∀ w l, m.IsIn w l → w = v) →
        (⟨goPredicate, [.symbol v.constant]⟩ ∈ model ↔ m.ArrivedAtOnce v) ∧
          (⟨stopPredicate, [.symbol v.constant]⟩ ∈ model ↔ ¬ m.ArrivedAtOnce v) := by
  intro m
  obtain ⟨model, hselected, hstop, hgo, -⟩ := Session.exists_model_of_solved hmake hsolved hbudget
  refine ⟨model, hselected, fun v hwaiting halone hfree ↦ ?_⟩
  rw [hgo, hstop, Monitor.mustYield_alone_iff halone hfree, not_not]
  exact ⟨and_iff_right hwaiting, Iff.rfl⟩

/-- A van arrives twice within half a second, and it may go. -/
theorem alone_of_session_jitter :
    ∃ (m₀ : Monitor) (solution : Solution) (model : Model),
      let s := (Session.start m₀).run [.event (.arrival Road.van Road.west 1.05 none)]
      Monitor.make .standard Road.topology Road.probe yieldText (.stratified standardBudget)
          (fun _ ↦ .ofText "") = .ok m₀ ∧
        s.solved? (.event (.arrival Road.van Road.west 1.45 none)) = some solution ∧
        solution.outcome.selected = some model ∧
        ⟨goPredicate, [.symbol Road.van.constant]⟩ ∈ model := by
  obtain ⟨m₀, hmake⟩ := Road.exists_make
  obtain ⟨-, -, hlogs, solution, hsolved, hbudget⟩ := Session.exists_solved_of_events hmake
    [.arrival Road.van Road.west 1.05 none] (e := .arrival Road.van Road.west 1.45 none)
    nofun (by decide +kernel)
  obtain ⟨hwaiting, halone, hfree, honce⟩ := Monitor.alone_of_two_arrivals hlogs
  obtain ⟨model, hselected, hverdict⟩ := alone_of_session hmake _ hsolved hbudget
  refine ⟨m₀, solution, model, hmake, hsolved, hselected, ?_⟩
  refine (hverdict _ hwaiting halone fun w l hin ↦ absurd hin (hfree w l)).1.2 (honce.2 ?_)
  decide +kernel

/-- A van arrives twice a second apart.  It is alone, and it must stop. -/
theorem alone_must_stop :
    ∃ (m₀ : Monitor) (solution : Solution) (model : Model),
      let s := (Session.start m₀).run [.event (.arrival Road.van Road.west 1 none)]
      let again : Action := .event (.arrival Road.van Road.west 2 none)
      let m := (s.act again).monitor
      Monitor.make .standard Road.topology Road.probe yieldText (.stratified standardBudget)
          (fun _ ↦ .ofText "") = .ok m₀ ∧
        s.solved? again = some solution ∧ solution.outcome.selected = some model ∧
        m.IsWaiting Road.van ∧ (∀ w, m.IsWaiting w → w = Road.van) ∧ (∀ w l, ¬ m.IsIn w l) ∧
        ⟨stopPredicate, [.symbol Road.van.constant]⟩ ∈ model ∧
        ⟨goPredicate, [.symbol Road.van.constant]⟩ ∉ model := by
  obtain ⟨m₀, hmake⟩ := Road.exists_make
  obtain ⟨-, -, hlogs, solution, hsolved, hbudget⟩ := Session.exists_solved_of_events hmake
    [.arrival Road.van Road.west 1 none] (e := .arrival Road.van Road.west 2 none)
    nofun (by decide +kernel)
  obtain ⟨hwaiting, halone, hfree, honce⟩ := Monitor.alone_of_two_arrivals hlogs
  obtain ⟨model, hselected, hstop, hgo, -⟩ := Session.exists_model_of_solved hmake hsolved hbudget
  refine ⟨m₀, solution, model, hmake, hsolved, hselected, hwaiting, halone, hfree, ?_⟩
  have htwice : ¬ Resolution.standard.tick 1 = Resolution.standard.tick 2 := by decide +kernel
  have hyield := (Monitor.mustYield_alone_iff halone fun w l hin ↦ absurd hin (hfree w l)).2
    (mt honce.1 htwice)
  exact ⟨(hstop _).2 hyield, fun hmem ↦ ((hgo _).1 hmem).2 hyield⟩

end RightOfWay
