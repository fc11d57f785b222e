import RightOfWay.Arbitration.Monitor

/-!
# Sessions

What can happen to a monitor, in any order and as often as one likes.

* An `Action` is one call from outside: a handle is attached, an event comes in, a lane is opened or
  closed, the facts about the crossing are asked for, a solve is asked for, or a solution is acted
  on.  A `Session` is a monitor with the solutions that it has given so far, and any of them can be
  acted on at any later time.
* `Session.run` performs a list of actions, so that the states that a monitor can reach are those of
  `(Session.start m).run actions`.
* `Monitor.Stable P` says that no step that a monitor takes ends `P`.  What is stable and true at
  first is true in every state, and every solution of a session was given in such a state
  (`Session.within_run`).
-/

set_option autoImplicit false

namespace RightOfWay

namespace Monitor

theorem handle_departure (m : Monitor) {e : Event} (he : e.isDeparture = true) :
    m.handle e = (none, m.forget e.vehicle) :=
  if_pos he

/-- An event that is no departure is recorded, a solve follows, and its solution is acted on. -/
theorem handle_turn (m : Monitor) {e : Event} (he : ¬ e.isDeparture = true) :
    let solving := (m.record e).solve
    m.handle e =
      (some ⟨solving.1, (solving.2.dispatch solving.1).1⟩, (solving.2.dispatch solving.1).2) := by
  rw [handle, if_neg he]
  rfl

end Monitor

/-- A call to a monitor. -/
inductive Action where
  | attach (vehicle : VehicleId) (handle : Handle)
  | event (event : Event)
  | setLane (fork : ForkId) (exit : ExitId) (active : Bool)
  /-- The facts about the crossing are brought up to date. -/
  | geometry
  | solve
  /-- The solution of this number, counted from zero, is acted on once more. -/
  | dispatch (number : Nat)

/-- A monitor at work, with the solutions it has given, from the first to the last. -/
structure Session where
  monitor : Monitor
  solutions : List Solution

namespace Session

/-- Nothing has happened yet. -/
def start (m : Monitor) : Session := ⟨m, []⟩

/-- The session after one more call.  One that fails changes nothing. -/
def act (s : Session) : Action → Session
  | .attach v h => { s with monitor := s.monitor.attach v h }
  | .event e =>
    match s.monitor.handle e with
    | (none, m) => { s with monitor := m }
    | (some cycle, m) => ⟨m, s.solutions ++ [cycle.solution]⟩
  | .setLane fork exit active =>
    match s.monitor.setLane fork exit active with
    | .error _ => s
    | .ok (_, m) => { s with monitor := m }
  | .geometry => { s with monitor := s.monitor.refresh }
  | .solve => ⟨s.monitor.solve.2, s.solutions ++ [s.monitor.solve.1]⟩
  | .dispatch number =>
    match s.solutions[number]? with
    | none => s
    | some solution => { s with monitor := (s.monitor.dispatch solution).2 }

/-- The session after these calls. -/
def run (s : Session) (actions : List Action) : Session := actions.foldl act s

@[simp] theorem run_nil (s : Session) : s.run [] = s := rfl

@[simp] theorem run_cons (s : Session) (a : Action) (actions : List Action) :
    s.run (a :: actions) = (s.act a).run actions := rfl

theorem run_append (s : Session) (earlier later : List Action) :
    s.run (earlier ++ later) = (s.run earlier).run later :=
  List.foldl_append

theorem act_departure (s : Session) {e : Event} (he : e.isDeparture = true) :
    s.act (.event e) = { s with monitor := s.monitor.forget e.vehicle } := by
  rw [act, s.monitor.handle_departure he]

theorem act_turn (s : Session) {e : Event} (he : ¬ e.isDeparture = true) :
    s.act (.event e) =
      ⟨((s.monitor.record e).solve.2.dispatch (s.monitor.record e).solve.1).2,
        s.solutions ++ [(s.monitor.record e).solve.1]⟩ := by
  rw [act, s.monitor.handle_turn he]

/-- An event is handled in a session as it is on its own. -/
theorem monitor_act_event (s : Session) (e : Event) :
    (s.act (.event e)).monitor = (s.monitor.handle e).2 := by
  by_cases he : e.isDeparture = true
  · rw [s.act_departure he, s.monitor.handle_departure he]
  · rw [s.act_turn he, s.monitor.handle_turn he]

end Session

/-! ## What every step keeps -/

/-- No step of a monitor ends the property, if the solutions that it acts on were given in states
with the property. -/
structure Monitor.Stable (P : Monitor → Prop) : Prop where
  attach : ∀ m v h, P m → P (m.attach v h)
  record : ∀ m e, P m → P (m.record e)
  forget : ∀ m v, P m → P (m.forget v)
  setLane : ∀ m fork exit active change m',
    m.setLane fork exit active = .ok (change, m') → P m → P m'
  refresh : ∀ m, P m → P m.refresh
  solve : ∀ m, P m → P m.solve.2
  dispatch : ∀ m m', P m → P m' → P (m.dispatch m'.solve.1).2

namespace Monitor

theorem Stable.and {P Q : Monitor → Prop} (hP : Stable P) (hQ : Stable Q) :
    Stable fun m ↦ P m ∧ Q m where
  attach m v h hm := ⟨hP.attach m v h hm.1, hQ.attach m v h hm.2⟩
  record m e hm := ⟨hP.record m e hm.1, hQ.record m e hm.2⟩
  forget m v hm := ⟨hP.forget m v hm.1, hQ.forget m v hm.2⟩
  setLane _ _ _ _ _ _ hok hm := ⟨hP.setLane _ _ _ _ _ _ hok hm.1, hQ.setLane _ _ _ _ _ _ hok hm.2⟩
  refresh m hm := ⟨hP.refresh m hm.1, hQ.refresh m hm.2⟩
  solve m hm := ⟨hP.solve m hm.1, hQ.solve m hm.2⟩
  dispatch m m' hm hm' := ⟨hP.dispatch m m' hm.1 hm'.1, hQ.dispatch m m' hm.2 hm'.2⟩

theorem setLane_eq_ok {m m' : Monitor} {fork : ForkId} {exit : ExitId} {active : Bool}
    {change : LaneChange} (h : m.setLane fork exit active = .ok (change, m')) :
    m.topology.setLane fork exit active = .ok change ∧
      m' = { m with topology := change.topology } := by
  rw [setLane] at h
  rcases hchange : m.topology.setLane fork exit active with e | change'
  · rw [hchange] at h
    cases h
  · rw [hchange] at h
    cases h
    exact ⟨rfl, rfl⟩

/-- Acting on a solution changes the handles and the accepted commands and nothing else. -/
theorem dispatch_eq (m : Monitor) (s : Solution) :
    ∃ controls lastCommands, (m.dispatch s).2 = { m with controls, lastCommands } := by
  rw [dispatch]
  split
  · exact ⟨m.controls, m.lastCommands, rfl⟩
  · exact ⟨_, _, rfl⟩

/-- The monitor works with the same rules, probe and oracle as the other one. -/
structure SameSetup (m₀ m : Monitor) : Prop where
  rules : m.rules = m₀.rules
  probe : m.probe = m₀.probe
  oracle : m.advisor.oracle = m₀.advisor.oracle

theorem stable_sameSetup (m₀ : Monitor) : Stable (SameSetup m₀) where
  attach _ _ _ h := ⟨h.rules, h.probe, h.oracle⟩
  record _ _ h := ⟨h.rules, h.probe, h.oracle⟩
  forget _ _ h := ⟨h.rules, h.probe, h.oracle⟩
  setLane _ _ _ _ _ _ hok h := by
    obtain ⟨-, rfl⟩ := setLane_eq_ok hok
    exact ⟨h.rules, h.probe, h.oracle⟩
  refresh _ h := ⟨h.rules, h.probe, h.oracle⟩
  solve _ h := ⟨h.rules, h.probe, h.oracle⟩
  dispatch m m' h _ := by
    obtain ⟨_, _, heq⟩ := m.dispatch_eq m'.solve.1
    rw [heq]
    exact ⟨h.rules, h.probe, h.oracle⟩

/-- A monitor that nothing has happened to. -/
structure Fresh (m : Monitor) : Prop where
  ledger : m.ledger = .empty
  controls : m.controls = .empty
  lastCommands : m.lastCommands = ∅
  cache : m.cache = FactsCache.empty.refresh m.topology m.probe

section SettingUp

variable {settings : Settings} {topology : Topology} {probe : Probe} {rules : String}
  {oracle : Oracle} {clock : Nat → Stamp} {m : Monitor}

/-- What a monitor consists of when it has been set up. -/
theorem eq_of_make (h : make settings topology probe rules oracle clock = .ok m) :
    ∃ resolution advisor, settings.check = .ok resolution ∧
      Advisor.make oracle settings.maxModels = .ok advisor ∧
      m = {
        settings, resolution, topology, probe, rules, advisor
        cache := FactsCache.empty.refresh topology probe
        ledger := .empty
        controls := .empty
        journal? :=
          settings.artifactDir?.map fun _ ↦ .start settings.name clock (.compile topology probe)
        lastCommands := ∅ } := by
  rw [make] at h
  rcases hcheck : settings.check with e | resolution
  · rw [hcheck] at h
    cases h
  rw [hcheck] at h
  rcases hadvisor : Advisor.make oracle settings.maxModels with e | advisor
  · dsimp only [bind, Except.bind] at h
    rw [hadvisor] at h
    cases h
  dsimp only [bind, Except.bind] at h
  rw [hadvisor] at h
  cases h
  exact ⟨resolution, advisor, rfl, rfl, rfl⟩

/-- A monitor starts fresh, with the rules, the oracle and the crossing that it was given. -/
theorem of_make (h : make settings topology probe rules oracle clock = .ok m) :
    m.Fresh ∧ m.rules = rules ∧ m.advisor.oracle = oracle ∧ m.topology = topology := by
  obtain ⟨_, advisor, -, hadvisor, rfl⟩ := eq_of_make h
  refine ⟨⟨rfl, rfl, rfl, rfl⟩, rfl, ?_, rfl⟩
  rw [Advisor.make] at hadvisor
  split at hadvisor
  · cases hadvisor
    rfl
  · cases hadvisor

theorem probe_of_make (h : make settings topology probe rules oracle clock = .ok m) :
    m.probe = probe := by
  obtain ⟨_, _, -, -, rfl⟩ := eq_of_make h
  rfl

end SettingUp

/-- The standard settings are fit for use. -/
theorem check_standard : Settings.standard.check = .ok .standard := by
  have hfit : (Resolution.standard.seconds.isFinite && !(Resolution.standard.seconds ≤ 0)) = true :=
    by decide
  rw [Settings.check, if_neg (by decide), if_neg (by decide), Resolution.make]
  exact if_pos hfit

theorem exists_make_standard (topology : Topology) (probe : Probe) (rules : String)
    (oracle : Oracle) (clock : Nat → Stamp) :
    ∃ m, make .standard topology probe rules oracle clock = .ok m := by
  rw [make, check_standard]
  exact ⟨_, rfl⟩

theorem resolution_of_make_standard {topology : Topology} {probe : Probe} {rules : String}
    {oracle : Oracle} {clock : Nat → Stamp} {m : Monitor}
    (h : make .standard topology probe rules oracle clock = .ok m) : m.resolution = .standard := by
  obtain ⟨resolution, _, hcheck, -, rfl⟩ := eq_of_make h
  rw [check_standard] at hcheck
  cases hcheck
  rfl

end Monitor

namespace Session

variable {P : Monitor → Prop}

/-- The monitor has the property, and every solution was given in a state with it. -/
structure Within (P : Monitor → Prop) (s : Session) : Prop where
  monitor : P s.monitor
  solutions : ∀ solution ∈ s.solutions, ∃ m, P m ∧ m.solve.1 = solution

namespace Within

theorem withMonitor {s : Session} (hs : s.Within P) {m : Monitor} (hm : P m) :
    Within P { s with monitor := m } := ⟨hm, hs.solutions⟩

theorem append {s : Session} (hs : s.Within P) {m m' : Monitor} (hm : P m) (hm' : P m') :
    Within P ⟨m, s.solutions ++ [m'.solve.1]⟩ := by
  refine ⟨hm, fun solution hsolution ↦ ?_⟩
  rcases List.mem_append.1 hsolution with hmem | hmem
  · exact hs.solutions solution hmem
  · exact ⟨m', hm', (List.mem_singleton.1 hmem).symm⟩

theorem act (hP : Monitor.Stable P) {s : Session} (hs : s.Within P) (a : Action) :
    (s.act a).Within P := by
  cases a with
  | attach v h => exact hs.withMonitor (hP.attach _ v h hs.monitor)
  | event e =>
    by_cases he : e.isDeparture = true
    · rw [s.act_departure he]
      exact hs.withMonitor (hP.forget _ _ hs.monitor)
    · have hrecord := hP.record _ e hs.monitor
      rw [s.act_turn he]
      exact hs.append (hP.dispatch _ _ (hP.solve _ hrecord) hrecord) hrecord
  | setLane fork exit active =>
    rw [Session.act]
    split
    · exact hs
    · rename_i hok
      exact hs.withMonitor (hP.setLane _ _ _ _ _ _ hok hs.monitor)
  | geometry => exact hs.withMonitor (hP.refresh _ hs.monitor)
  | solve => exact hs.append (hP.solve _ hs.monitor) hs.monitor
  | dispatch number =>
    rw [Session.act]
    split
    · exact hs
    · rename_i solution hsolution
      obtain ⟨m, hm, rfl⟩ := hs.solutions _ (List.mem_of_getElem? hsolution)
      exact hs.withMonitor (hP.dispatch _ _ hs.monitor hm)

end Within

/-- **What is stable holds in every state that is reached**, and also where the solutions were
given. -/
theorem within_run (hP : Monitor.Stable P) {m : Monitor} (hm : P m) (actions : List Action) :
    ((start m).run actions).Within P := by
  have hrun : ∀ s : Session, s.Within P → (s.run actions).Within P := by
    intro s hs
    induction actions generalizing s with
    | nil => exact hs
    | cons a actions ih => exact ih _ (hs.act hP a)
  exact hrun _ ⟨hm, nofun⟩

end Session
end RightOfWay
