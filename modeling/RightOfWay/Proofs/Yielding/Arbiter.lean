import RightOfWay.Proofs.Rules.TermOrder
import RightOfWay.Proofs.Yielding.Reach

/-!
# The traffic rules as an arbiter

Who must yield at a crossing, said without rules.

* `Monitor.Waits`, `Monitor.IsIn` and `Monitor.MayTake` say what a monitor knows about a vehicle,
  and `Monitor.MustYield` says which vehicles must stop: those that others were there before, those
  with another vehicle on their right, and those whose way is crossed by another vehicle.
* What the traffic rules derive from the facts of a monitor is the same, relation by relation
  (`Monitor.Sound.mem_waiting_iff` and so on).  Facts about a vehicle come from its own history, for
  constants tell vehicles apart.
* So a solve gives one model (`Monitor.Sound.exists_situation`), and the verdicts in it are those of
  the arbiter (`Monitor.Sound.mem_stop_iff`, `Monitor.Sound.mem_go_iff`).
-/

set_option autoImplicit false

namespace RightOfWay

/-! ## Comparisons -/

/-- Constants of identifiers differ if the identifiers do. -/
theorem Comparison.holds_ne_constant {r : Role} {i j : Ident r} :
    ne.holds (.symbol i.constant) (.symbol j.constant) = true ↔ i ≠ j := by
  rw [holds_ne, ne_eq, Term.symbol.injEq, not_iff_not]
  exact ⟨Ident.constant_injective, congrArg _⟩

namespace Monitor

/-! ## The arbiter -/

/-- The vehicle has arrived at the fork at the tick, and it has not entered the crossing. -/
def Waits (m : Monitor) (v : VehicleId) (f : ForkId) (t : Tick) : Prop :=
  Event.fact "arrivesAtForkAtTime" v [f.constant] t ∈ (m.ledger.history v).facts ∧
    ∀ a ∈ (m.ledger.history v).facts, a.predicate ≠ "entersForkAtTime"

/-- The vehicle has shown the signal at the fork. -/
def Shows (m : Monitor) (v : VehicleId) (s : Signal) (f : ForkId) : Prop :=
  ∃ t, Event.fact "signalsAtForkAtTime" v [s.constant, f.constant] t ∈ (m.ledger.history v).facts

/-- The vehicle has not shown any signal anywhere. -/
def ShowsNothing (m : Monitor) (v : VehicleId) : Prop :=
  ∀ a ∈ (m.ledger.history v).facts, a.predicate ≠ "signalsAtForkAtTime"

/-- The vehicle has entered the lane and never left it. -/
def IsIn (m : Monitor) (v : VehicleId) (l : LaneId) : Prop :=
  (∃ t, Event.fact "entersLaneAtTime" v [l.constant] t ∈ (m.ledger.history v).facts) ∧
    ∀ t, Event.fact "leavesLaneAtTime" v [l.constant] t ∉ (m.ledger.history v).facts

/-- The facts about the crossing as it is now relate the constants. -/
def Compiled (m : Monitor) (predicate : String) (constants : List String) : Prop :=
  Facts.relate predicate constants ∈ (Facts.compile m.topology m.probe).atoms

/-- The lane leaves the fork, and the vehicle has shown there the signal that the lane asks for, or
no signal at all. -/
def MayTake (m : Monitor) (v : VehicleId) (f : ForkId) (l : LaneId) : Prop :=
  (∃ e : ExitId, m.Compiled "laneFromTo" [l.constant, f.constant, e.constant]) ∧
    ((∃ s : Signal, m.Compiled "laneCorrectSignal" [l.constant, s.constant] ∧ m.Shows v s f) ∨
      m.ShowsNothing v)

/-- The vehicle waits, and a waiting vehicle was there before, another vehicle that arrived at the
same tick is on the right, or another vehicle is in a lane that overlaps one that it may take. -/
def MustYield (m : Monitor) (v : VehicleId) : Prop :=
  ∃ f t, m.Waits v f t ∧
    ((∃ w g u, m.Waits w g u ∧ u < t) ∨
      (∃ w g, w ≠ v ∧ m.Waits w g t ∧ m.Compiled "isOnRightOf" [g.constant, f.constant]) ∨
      ∃ l k w, m.MayTake v f l ∧ m.Compiled "overlaps" [l.constant, k.constant] ∧ w ≠ v ∧
        m.IsIn w k)

/-! ## Facts of a monitor -/

variable {m : Monitor} {M : Set Atom} {v : VehicleId} {a : Atom} {x y z : Term}

/-- The predicate of a fact about a vehicle tells its form. -/
structure FactForm (v : VehicleId) (a : Atom) : Prop where
  arrives : a.predicate = "arrivesAtForkAtTime" → ∃ (f : ForkId) (t : Tick),
    a.args = [.symbol v.constant, .symbol f.constant, .int t]
  signals : a.predicate = "signalsAtForkAtTime" → ∃ (s : Signal) (f : ForkId) (t : Tick),
    a.args = [.symbol v.constant, .symbol s.constant, .symbol f.constant, .int t]
  entersFork : a.predicate = "entersForkAtTime" → ∃ (f : ForkId) (t : Tick),
    a.args = [.symbol v.constant, .symbol f.constant, .int t]
  entersLane : a.predicate = "entersLaneAtTime" → ∃ (l : LaneId) (t : Tick),
    a.args = [.symbol v.constant, .symbol l.constant, .int t]
  leavesLane : a.predicate = "leavesLaneAtTime" → ∃ (l : LaneId) (t : Tick),
    a.args = [.symbol v.constant, .symbol l.constant, .int t]

theorem Sound.factForm (h : m.Sound) (ha : a ∈ (m.ledger.history v).facts) : FactForm v a := by
  obtain ⟨e, tick, rfl, hfact⟩ := h.1 v a ha
  cases e with
  | arrival v f _ signal? =>
    simp only [Event.facts, List.mem_cons, List.mem_map] at hfact
    rcases hfact with rfl | ⟨s, -, rfl⟩
    · constructor <;> intro hpredicate <;> simp [Event.fact] at hpredicate
      exact ⟨f, tick, rfl⟩
    · constructor <;> intro hpredicate <;> simp [Event.fact] at hpredicate
      exact ⟨s, f, tick, rfl⟩
  | entrance v f _ | enterLane v f _ | exitLane v f _ =>
    obtain rfl := List.mem_singleton.1 hfact
    constructor <;> intro hpredicate <;> simp [Event.fact] at hpredicate
    exact ⟨f, tick, rfl⟩
  | departure v => exact absurd hfact List.not_mem_nil

/-- The predicates of facts about vehicles. -/
def eventPredicates : List String :=
  ["arrivesAtForkAtTime", "signalsAtForkAtTime", "entersForkAtTime", "entersLaneAtTime",
    "leavesLaneAtTime"]

/-- The predicates of facts about crossings. -/
def geometryPredicates : List String :=
  ["isOnRightOf", "laneFromTo", "laneCorrectSignal", "overlaps"]

theorem Sound.predicate_of_mem_history (h : m.Sound) (ha : a ∈ (m.ledger.history v).facts) :
    a.predicate ∈ eventPredicates := by
  obtain ⟨e, tick, -, hfact⟩ := h.1 v a ha
  cases e with
  | arrival v f _ signal? =>
    simp only [Event.facts, List.mem_cons, List.mem_map] at hfact
    rcases hfact with rfl | ⟨s, -, rfl⟩ <;> simp [Event.fact, eventPredicates]
  | entrance v f _ | enterLane v f _ | exitLane v f _ =>
    obtain rfl := List.mem_singleton.1 hfact
    simp [Event.fact, eventPredicates]
  | departure v => exact absurd hfact List.not_mem_nil

theorem predicate_of_mem_compile {t : Topology} {probe : Probe}
    (ha : a ∈ (Facts.compile t probe).atoms) : a.predicate ∈ geometryPredicates := by
  rcases Facts.cases_of_mem_compile ha with
    ⟨f, g, rfl⟩ | ⟨l, f, e, rfl⟩ | ⟨l, s, rfl⟩ | ⟨l, k, rfl⟩
  all_goals simp [Facts.relate, geometryPredicates]

theorem not_mem_geometryPredicates {predicate : String} (h : predicate ∈ eventPredicates) :
    predicate ∉ geometryPredicates := by
  have hdisjoint : ∀ p ∈ eventPredicates, p ∉ geometryPredicates := by decide
  exact hdisjoint predicate h

theorem Sound.mem_facts (h : m.Sound) :
    a ∈ m.facts ↔ (∃ v, a ∈ (m.ledger.history v).facts) ∨
      a ∈ (Facts.compile m.topology m.probe).atoms := by
  rw [facts, List.mem_append, Ledger.mem_facts, h.2.geometry_eq]

theorem Sound.mem_inputPredicates (h : m.Sound) : ∀ a ∈ m.facts, a.predicate ∈ inputPredicates := by
  intro a ha
  rcases h.mem_facts.1 ha with ⟨v, hv⟩ | hgeometry
  · exact List.mem_append_left geometryPredicates (h.predicate_of_mem_history hv)
  · exact List.mem_append_right eventPredicates (predicate_of_mem_compile hgeometry)

theorem Sound.mem_facts_vehicle (h : m.Sound) (ha : a.predicate ∈ eventPredicates) :
    a ∈ m.facts ↔ ∃ v, a ∈ (m.ledger.history v).facts := by
  rw [h.mem_facts]
  exact or_iff_left fun hgeometry ↦
    not_mem_geometryPredicates ha (predicate_of_mem_compile hgeometry)

theorem Sound.mem_facts_crossing (h : m.Sound) (ha : a.predicate ∈ geometryPredicates) :
    a ∈ m.facts ↔ a ∈ (Facts.compile m.topology m.probe).atoms := by
  rw [h.mem_facts]
  exact or_iff_right fun ⟨_, hv⟩ ↦
    not_mem_geometryPredicates (h.predicate_of_mem_history hv) ha

/-- The facts about a vehicle are those of its own history. -/
theorem Sound.mem_facts_about (h : m.Sound) (ha : a.predicate ∈ eventPredicates)
    (hv : a.args.head? = some (.symbol v.constant)) :
    a ∈ m.facts ↔ a ∈ (m.ledger.history v).facts := by
  rw [h.mem_facts_vehicle ha]
  constructor
  · rintro ⟨w, hw⟩
    obtain ⟨e, tick, rfl, hfact⟩ := h.1 w a hw
    rw [Event.head?_args_of_mem_facts hfact] at hv
    have hsame : e.vehicle = v := Ident.constant_injective (Term.symbol.inj (Option.some.inj hv))
    rwa [hsame] at hw
  · exact fun hmem ↦ ⟨v, hmem⟩

/-! ## Relation by relation -/

theorem Sound.mem_waiting_iff (h : m.Sound) (hM : Situation m.facts M) :
    ⟨"waiting", [x, y, z]⟩ ∈ M ↔
      ∃ v f t, m.Waits v f t ∧ x = .symbol v.constant ∧ y = .symbol f.constant ∧ z = .int t := by
  rw [hM.mem_waiting]
  constructor
  · rintro ⟨harrives, hentered⟩
    obtain ⟨v, hv⟩ := (h.mem_facts_vehicle (by simp [eventPredicates])).1 harrives
    obtain ⟨f, t, hargs⟩ := (h.factForm hv).arrives rfl
    cases hargs
    refine ⟨v, f, t, ⟨hv, fun ⟨predicate, args⟩ ha hpredicate ↦ ?_⟩, rfl, rfl, rfl⟩
    obtain ⟨g, u, hargs⟩ := (h.factForm ha).entersFork hpredicate
    cases hpredicate
    cases hargs
    exact hentered _ _ (h.mem_facts.2 (.inl ⟨v, ha⟩))
  · rintro ⟨v, f, t, ⟨harrives, hentered⟩, rfl, rfl, rfl⟩
    refine ⟨h.mem_facts.2 (.inl ⟨v, harrives⟩), fun g u hmem ↦ ?_⟩
    exact hentered _ ((h.mem_facts_about (by simp [eventPredicates]) rfl).1 hmem) rfl

theorem Sound.mem_inLane_iff (h : m.Sound) (hM : Situation m.facts M) :
    ⟨"inLane", [x, y]⟩ ∈ M ↔
      ∃ v l, m.IsIn v l ∧ x = .symbol v.constant ∧ y = .symbol l.constant := by
  rw [hM.mem_inLane]
  constructor
  · rintro ⟨⟨z, henters⟩, hleaves⟩
    obtain ⟨v, hv⟩ := (h.mem_facts_vehicle (by simp [eventPredicates])).1 henters
    obtain ⟨l, t, hargs⟩ := (h.factForm hv).entersLane rfl
    cases hargs
    exact ⟨v, l, ⟨⟨t, hv⟩, fun u hu ↦ hleaves _ (h.mem_facts.2 (.inl ⟨v, hu⟩))⟩, rfl, rfl⟩
  · rintro ⟨v, l, ⟨⟨t, henters⟩, hleaves⟩, rfl, rfl⟩
    refine ⟨⟨.int t, h.mem_facts.2 (.inl ⟨v, henters⟩)⟩, fun z hmem ↦ ?_⟩
    have hv := (h.mem_facts_about (by simp [eventPredicates]) rfl).1 hmem
    obtain ⟨k, u, hargs⟩ := (h.factForm hv).leavesLane rfl
    simp only [List.cons.injEq, true_and, and_true] at hargs
    obtain ⟨-, rfl⟩ := hargs
    exact hleaves u hv

theorem exists_of_laneFromTo {t : Topology} {probe : Probe}
    (h : ⟨"laneFromTo", [x, y, z]⟩ ∈ (Facts.compile t probe).atoms) :
    ∃ (l : LaneId) (f : ForkId) (e : ExitId),
      x = .symbol l.constant ∧ y = .symbol f.constant ∧ z = .symbol e.constant := by
  rcases Facts.cases_of_mem_compile h with ⟨f, g, heq⟩ | ⟨l, f, e, heq⟩ | ⟨l, s, heq⟩ | ⟨l, k, heq⟩
  case inr.inl =>
    cases heq
    exact ⟨l, f, e, rfl, rfl, rfl⟩
  all_goals simp [Facts.relate] at heq

theorem Sound.exists_laneFromTo_iff (h : m.Sound) {f : ForkId} {l : LaneId} :
    (∃ e : ExitId, m.Compiled "laneFromTo" [l.constant, f.constant, e.constant]) ↔
      ∃ e, ⟨"laneFromTo", [.symbol l.constant, .symbol f.constant, e]⟩ ∈ m.facts := by
  constructor
  · rintro ⟨e, he⟩
    exact ⟨_, h.mem_facts.2 (.inr he)⟩
  · rintro ⟨e, he⟩
    rw [h.mem_facts_crossing (by simp [geometryPredicates])] at he
    obtain ⟨_, _, e', -, -, rfl⟩ := exists_of_laneFromTo he
    exact ⟨e', he⟩

theorem Sound.showsNothing_iff (h : m.Sound) :
    m.ShowsNothing v ↔
      ∀ s g u, ⟨"signalsAtForkAtTime", [.symbol v.constant, s, g, u]⟩ ∉ m.facts := by
  constructor
  · intro hnone s g u hmem
    exact hnone _ ((h.mem_facts_about (by simp [eventPredicates]) rfl).1 hmem) rfl
  · rintro hnone ⟨predicate, args⟩ ha hpredicate
    obtain ⟨s, g, u, hargs⟩ := (h.factForm ha).signals hpredicate
    cases hpredicate
    cases hargs
    exact hnone _ _ _ (h.mem_facts.2 (.inl ⟨v, ha⟩))

/-- The vehicle has shown at the fork what the lane asks for. -/
theorem Sound.exists_shows_iff (h : m.Sound) {f : ForkId} {l : LaneId} :
    (∃ s : Signal, m.Compiled "laneCorrectSignal" [l.constant, s.constant] ∧ m.Shows v s f) ↔
      ∃ s,
        (∃ u, ⟨"signalsAtForkAtTime", [.symbol v.constant, s, .symbol f.constant, u]⟩ ∈ m.facts) ∧
        ⟨"laneCorrectSignal", [.symbol l.constant, s]⟩ ∈ m.facts := by
  constructor
  · rintro ⟨s, hasks, t, hshows⟩
    exact ⟨_, ⟨_, h.mem_facts.2 (.inl ⟨v, hshows⟩)⟩, h.mem_facts.2 (.inr hasks)⟩
  · rintro ⟨s, ⟨u, hshows⟩, hasks⟩
    have hv := (h.mem_facts_about (by simp [eventPredicates]) rfl).1 hshows
    obtain ⟨s', g, u', hargs⟩ := (h.factForm hv).signals rfl
    simp only [List.cons.injEq, true_and, and_true] at hargs
    obtain ⟨rfl, -, rfl⟩ := hargs
    have hcompiled := (h.mem_facts_crossing (by simp [geometryPredicates])).1 hasks
    exact ⟨s', hcompiled, u', hv⟩

/-- The choice of a lane, as the rules put it and as the arbiter does. -/
theorem Sound.mayTake_iff (h : m.Sound) {f : ForkId} {l : LaneId} :
    m.MayTake v f l ↔
      (∃ e, ⟨"laneFromTo", [.symbol l.constant, .symbol f.constant, e]⟩ ∈ m.facts) ∧
        ((∃ s, (∃ u, ⟨"signalsAtForkAtTime",
                [.symbol v.constant, s, .symbol f.constant, u]⟩ ∈ m.facts) ∧
            ⟨"laneCorrectSignal", [.symbol l.constant, s]⟩ ∈ m.facts) ∨
          ∀ s g u, ⟨"signalsAtForkAtTime", [.symbol v.constant, s, g, u]⟩ ∉ m.facts) := by
  rw [MayTake, h.exists_laneFromTo_iff, h.exists_shows_iff, h.showsNothing_iff]

theorem Sound.mem_intends_iff (h : m.Sound) (hM : Situation m.facts M) :
    ⟨"intends", [x, y]⟩ ∈ M ↔ ∃ v f t l, m.Waits v f t ∧ m.MayTake v f l ∧
      x = .symbol v.constant ∧ y = .symbol l.constant := by
  rw [hM.mem_intends]
  constructor
  · rintro ⟨_, ⟨_, hwaiting⟩, ⟨e, hlane⟩, hsignal⟩
    obtain ⟨v, f, t, hwaits, rfl, rfl, rfl⟩ := (h.mem_waiting_iff hM).1 hwaiting
    have hcompiled := (h.mem_facts_crossing (by simp [geometryPredicates])).1 hlane
    obtain ⟨l, _, _, rfl, -, -⟩ := exists_of_laneFromTo hcompiled
    exact ⟨v, f, t, l, hwaits, h.mayTake_iff.2 ⟨⟨e, hlane⟩, hsignal⟩, rfl, rfl⟩
  · rintro ⟨v, f, t, l, hwaits, hmay, rfl, rfl⟩
    obtain ⟨hlane, hsignal⟩ := h.mayTake_iff.1 hmay
    exact ⟨_, ⟨_, (h.mem_waiting_iff hM).2 ⟨v, f, t, hwaits, rfl, rfl, rfl⟩⟩, hlane, hsignal⟩

theorem Sound.mem_arrivedEarlier_iff (h : m.Sound) (hM : Situation m.facts M) :
    ⟨"arrivedEarlier", [x, y]⟩ ∈ M ↔ ∃ v f t w g u, m.Waits v f t ∧ m.Waits w g u ∧ u < t ∧
      x = .symbol w.constant ∧ y = .symbol v.constant := by
  rw [hM.mem_arrivedEarlier]
  constructor
  · rintro ⟨_, _, hv, _, _, hw, hlt⟩
    obtain ⟨v, f, t, hwaits, rfl, rfl, rfl⟩ := (h.mem_waiting_iff hM).1 hv
    obtain ⟨w, g, u, hwaits', rfl, rfl, rfl⟩ := (h.mem_waiting_iff hM).1 hw
    exact ⟨v, f, t, w, g, u, hwaits, hwaits', Comparison.holds_lt_int.1 hlt, rfl, rfl⟩
  · rintro ⟨v, f, t, w, g, u, hwaits, hwaits', hlt, rfl, rfl⟩
    have hv := (h.mem_waiting_iff hM).2 ⟨v, f, t, hwaits, rfl, rfl, rfl⟩
    have hw := (h.mem_waiting_iff hM).2 ⟨w, g, u, hwaits', rfl, rfl, rfl⟩
    exact ⟨_, _, hv, _, _, hw, Comparison.holds_lt_int.2 hlt⟩

theorem Sound.mem_yieldsToRight_iff (h : m.Sound) (hM : Situation m.facts M) :
    ⟨"yieldsToRight", [x, y]⟩ ∈ M ↔ ∃ v f t w g, m.Waits v f t ∧ w ≠ v ∧ m.Waits w g t ∧
      m.Compiled "isOnRightOf" [g.constant, f.constant] ∧
      x = .symbol v.constant ∧ y = .symbol w.constant := by
  rw [hM.mem_yieldsToRight]
  constructor
  · rintro ⟨_, _, hv, _, hw, hon, hne⟩
    obtain ⟨v, f, t, hwaits, rfl, rfl, rfl⟩ := (h.mem_waiting_iff hM).1 hv
    obtain ⟨w, g, u, hwaits', rfl, rfl, hu⟩ := (h.mem_waiting_iff hM).1 hw
    cases hu
    have hcompiled := (h.mem_facts_crossing (by simp [geometryPredicates])).1 hon
    have hwv := (Comparison.holds_ne_constant.1 hne).symm
    exact ⟨v, f, t, w, g, hwaits, hwv, hwaits', hcompiled, rfl, rfl⟩
  · rintro ⟨v, f, t, w, g, hwaits, hwv, hwaits', hon, rfl, rfl⟩
    have hv := (h.mem_waiting_iff hM).2 ⟨v, f, t, hwaits, rfl, rfl, rfl⟩
    have hw := (h.mem_waiting_iff hM).2 ⟨w, g, t, hwaits', rfl, rfl, rfl⟩
    exact ⟨_, _, hv, _, hw, h.mem_facts.2 (.inr hon), Comparison.holds_ne_constant.2 hwv.symm⟩

theorem Sound.mem_blocked_iff (h : m.Sound) (hM : Situation m.facts M) :
    ⟨"blocked", [x]⟩ ∈ M ↔ ∃ v f t l k w, m.Waits v f t ∧ m.MayTake v f l ∧
      m.Compiled "overlaps" [l.constant, k.constant] ∧ w ≠ v ∧ m.IsIn w k ∧
      x = .symbol v.constant := by
  rw [hM.mem_blocked]
  constructor
  · rintro ⟨_, hintends, _, _, hin, hoverlaps, hne⟩
    obtain ⟨v, f, t, l, hwaits, hmay, rfl, rfl⟩ := (h.mem_intends_iff hM).1 hintends
    obtain ⟨w, k, hin', rfl, rfl⟩ := (h.mem_inLane_iff hM).1 hin
    have hcompiled := (h.mem_facts_crossing (by simp [geometryPredicates])).1 hoverlaps
    have hwv := (Comparison.holds_ne_constant.1 hne).symm
    exact ⟨v, f, t, l, k, w, hwaits, hmay, hcompiled, hwv, hin', rfl⟩
  · rintro ⟨v, f, t, l, k, w, hwaits, hmay, hoverlaps, hwv, hin, rfl⟩
    have hintends := (h.mem_intends_iff hM).2 ⟨v, f, t, l, hwaits, hmay, rfl, rfl⟩
    have hlane := (h.mem_inLane_iff hM).2 ⟨w, k, hin, rfl, rfl⟩
    exact ⟨_, hintends, _, _, hlane, h.mem_facts.2 (.inr hoverlaps),
      Comparison.holds_ne_constant.2 hwv.symm⟩

/-- **The rules make those vehicles stop that must yield.** -/
theorem Sound.mem_mustStopToYield_iff (h : m.Sound) (hM : Situation m.facts M) :
    ⟨"mustStopToYield", [x]⟩ ∈ M ↔ ∃ v, m.MustYield v ∧ x = .symbol v.constant := by
  rw [hM.mem_mustStopToYield, h.mem_blocked_iff hM]
  simp only [h.mem_arrivedEarlier_iff hM, h.mem_yieldsToRight_iff hM]
  constructor
  · rintro (⟨_, v, f, t, w, g, u, hwaits, hwaits', hlt, -, rfl⟩ |
      ⟨_, v, f, t, w, g, hwaits, hwv, hwaits', hon, rfl, -⟩ |
      ⟨v, f, t, l, k, w, hwaits, hmay, hoverlaps, hwv, hin, rfl⟩)
    · exact ⟨v, ⟨f, t, hwaits, .inl ⟨w, g, u, hwaits', hlt⟩⟩, rfl⟩
    · exact ⟨v, ⟨f, t, hwaits, .inr (.inl ⟨w, g, hwv, hwaits', hon⟩)⟩, rfl⟩
    · exact ⟨v, ⟨f, t, hwaits, .inr (.inr ⟨l, k, w, hmay, hoverlaps, hwv, hin⟩)⟩, rfl⟩
  · rintro ⟨v, ⟨f, t, hwaits, hreason⟩, rfl⟩
    rcases hreason with ⟨w, g, u, hwaits', hlt⟩ | ⟨w, g, hwv, hwaits', hon⟩ |
      ⟨l, k, w, hmay, hoverlaps, hwv, hin⟩
    · exact .inl ⟨_, v, f, t, w, g, u, hwaits, hwaits', hlt, rfl, rfl⟩
    · exact .inr (.inl ⟨_, v, f, t, w, g, hwaits, hwv, hwaits', hon, rfl, rfl⟩)
    · exact .inr (.inr ⟨v, f, t, l, k, w, hwaits, hmay, hoverlaps, hwv, hin, rfl⟩)

/-- **The rules let those vehicles go that wait and need not yield.** -/
theorem Sound.mem_hasRightOfWay_iff (h : m.Sound) (hM : Situation m.facts M) :
    ⟨"hasRightOfWay", [x]⟩ ∈ M ↔
      ∃ v, (∃ f t, m.Waits v f t) ∧ ¬ m.MustYield v ∧ x = .symbol v.constant := by
  rw [hM.mem_hasRightOfWay]
  constructor
  · rintro ⟨⟨_, _, hwaiting⟩, hstop⟩
    obtain ⟨v, f, t, hwaits, rfl, -, -⟩ := (h.mem_waiting_iff hM).1 hwaiting
    refine ⟨v, ⟨f, t, hwaits⟩, fun hyield ↦ hstop ?_, rfl⟩
    exact (h.mem_mustStopToYield_iff hM).2 ⟨v, hyield, rfl⟩
  · rintro ⟨v, ⟨f, t, hwaits⟩, hyield, rfl⟩
    refine ⟨⟨_, _, (h.mem_waiting_iff hM).2 ⟨v, f, t, hwaits, rfl, rfl, rfl⟩⟩, fun hstop ↦ ?_⟩
    obtain ⟨w, hw, heq⟩ := (h.mem_mustStopToYield_iff hM).1 hstop
    rw [Ident.constant_injective (Term.symbol.inj heq)] at hyield
    exact hyield hw

/-! ## Every solve -/

/-- The vehicle waits at some fork. -/
def IsWaiting (m : Monitor) (v : VehicleId) : Prop := ∃ f t, m.Waits v f t

theorem MustYield.isWaiting (h : m.MustYield v) : m.IsWaiting v := by
  obtain ⟨f, t, hwaits, -⟩ := h
  exact ⟨f, t, hwaits⟩

/-- The verdicts in an answer to the traffic rules are about waiting vehicles. -/
theorem Sound.exists_isWaiting_of_verdict (h : m.Sound) (hM : Situation m.facts M) (ha : a ∈ M)
    (hverdict : a.predicate = stopPredicate ∨ a.predicate = goPredicate) :
    ∃ v, m.IsWaiting v ∧ a.args = [.symbol v.constant] := by
  obtain ⟨x, hx⟩ := hM.exists_args_of_verdict ha hverdict
  obtain ⟨predicate, args⟩ := a
  cases hx
  rcases hverdict with rfl | rfl
  · obtain ⟨v, hyield, rfl⟩ := (h.mem_mustStopToYield_iff hM).1 ha
    exact ⟨v, hyield.isWaiting, rfl⟩
  · obtain ⟨v, hwaiting, -, rfl⟩ := (h.mem_hasRightOfWay_iff hM).1 ha
    exact ⟨v, hwaiting, rfl⟩

theorem Sound.mem_stop_iff (h : m.Sound) (hM : Situation m.facts M) :
    ⟨stopPredicate, [.symbol v.constant]⟩ ∈ M ↔ m.MustYield v := by
  rw [stopPredicate, h.mem_mustStopToYield_iff hM]
  constructor
  · rintro ⟨w, hw, heq⟩
    rwa [Ident.constant_injective (Term.symbol.inj heq)]
  · exact fun hv ↦ ⟨v, hv, rfl⟩

theorem Sound.mem_go_iff (h : m.Sound) (hM : Situation m.facts M) :
    ⟨goPredicate, [.symbol v.constant]⟩ ∈ M ↔ m.IsWaiting v ∧ ¬ m.MustYield v := by
  rw [goPredicate, h.mem_hasRightOfWay_iff hM]
  constructor
  · rintro ⟨w, hwaiting, hyield, heq⟩
    rw [Ident.constant_injective (Term.symbol.inj heq)]
    exact ⟨hwaiting, hyield⟩
  · exact fun ⟨hwaiting, hyield⟩ ↦ ⟨v, hwaiting, hyield, rfl⟩

/-- **The standard budget is enough for the traffic rules with up to 180 facts.** -/
theorem Sound.evaluate_ne_budgetExceeded (h : m.Sound) (hrules : m.rules = yieldText)
    {known : List Atom} (hknown : m.facts ⊆ known) (hlength : known.length ≤ 180)
    {rules : List Rule} (hparse : parseProgram m.program.text = .ok rules) :
    evaluate standardBudget rules ≠ .budgetExceeded := by
  have hread := h.parseProgram_of_ok (hrules ▸ parseProgram_yieldText)
  cases hparse.symm.trans hread
  intro hexceeded
  have hsafe := safe_of_parseProgram hparse
  obtain ⟨db, levels, hlevels, hdb, hlt⟩ := budget_lt_of_budgetExceeded hsafe hexceeded
  have hsituation : Situation m.facts {a | a ∈ db.atoms} :=
    ⟨hdb.isAnswerSet hsafe hlevels, h.mem_inputPredicates⟩
  have hle := hsituation.length_le (Database.nodup_atoms hdb.wellFormed) hknown
  have hsquare : known.length ^ 2 ≤ 180 ^ 2 := Nat.pow_le_pow_left hlength 2
  rw [standardBudget] at hlt
  omega

/-- A solve with the traffic rules gives one answer to them, if the budget is enough. -/
theorem Sound.exists_situation (h : m.Sound) (hrules : m.rules = yieldText) {budget : Nat}
    (horacle : m.advisor.oracle = .stratified budget)
    (hbudget : ∀ rules, parseProgram m.program.text = .ok rules →
      evaluate budget rules ≠ .budgetExceeded) :
    ∃ model, m.solve.1.outcome = .models [model] ∧ Situation m.facts {a | a ∈ model} := by
  have hparse : parseProgram m.rules = .ok yieldRules := by
    rw [hrules]
    exact parseProgram_yieldText
  have hheads : ∀ r ∈ yieldRules, r.head ≠ none := by decide +kernel
  obtain ⟨atoms, houtcome, hanswer⟩ := exists_models h horacle hparse
    (exists_stratify_iff.2 ⟨_, isLeveling_yieldRules⟩) hheads
    (hbudget _ (h.parseProgram_of_ok hparse))
  refine ⟨.ofAtoms atoms, houtcome, ?_, h.mem_inputPredicates⟩
  simpa only [Model.mem_ofAtoms] using hanswer

end Monitor

end RightOfWay
