import Mathlib.Data.List.Induction
import RightOfWay.Proofs.Arbitration.Calls
import RightOfWay.Proofs.Arbitration.Geometry

/-!
# When the facts about the crossing are compiled

* Some calls need the facts about the crossing (`Action.compiles`), and they find them in the cache
  or compile them anew (`Session.recompiles`).
* `Session.ChangedSinceCompile` says that some call since the facts were needed last has changed
  elements of the crossing.  The revisions in the cache and in the topology tell whether this is so
  (`Session.Tracks`), and every call keeps that up.

So the facts in a program are never out of date, and they are compiled anew exactly when elements
have changed (`geometry_of_session`).
-/

set_option autoImplicit false

namespace RightOfWay

/-- The call needs the facts about the crossing. -/
def Action.compiles : Action → Bool
  | .geometry => true
  | .solve => true
  | .event e => !e.isDeparture
  | _ => false

/-- The operations have made the topology of the monitor, in every state. -/
theorem Monitor.stable_built : Stable fun m ↦ m.topology.Built where
  attach _ _ _ h := h
  record _ _ h := h
  forget _ _ h := h
  setLane m _ _ _ _ _ hok h := by
    obtain ⟨hchange, rfl⟩ := setLane_eq_ok hok
    exact .setLane h hchange
  refresh _ h := h
  solve _ h := h
  dispatch m m' h _ := by
    obtain ⟨_, _, heq⟩ := m.dispatch_eq m'.solve.1
    rw [heq]
    exact h

namespace Session

variable {s : Session} {a : Action} {actions : List Action}

/-! ## Single calls -/

/-- A call that needs the facts brings them up to date, and leaves the crossing as it is. -/
theorem act_of_compiles (s : Session) (h : a.compiles = true) :
    (s.act a).monitor.topology = s.monitor.topology ∧
      (s.act a).monitor.cache = s.monitor.cache.refresh s.monitor.topology s.monitor.probe := by
  obtain ⟨_, _, hact⟩ := s.exists_act_eq a
  rw [hact]
  cases a with
  | event e =>
    rw [Action.compiles, Bool.not_eq_true'] at h
    rw [Monitor.watch, h]
    exact ⟨rfl, rfl⟩
  | geometry => exact ⟨rfl, rfl⟩
  | solve => exact ⟨rfl, rfl⟩
  | attach | setLane | dispatch => cases h

/-- Any other call leaves the cache alone.  If it changes the crossing at all, it changes elements
and takes the revision up. -/
theorem act_of_not_compiles (hkeyed : s.monitor.topology.Keyed) (h : ¬ a.compiles = true) :
    (s.act a).monitor.cache = s.monitor.cache ∧
      ((s.act a).monitor.topology = s.monitor.topology ∨
        ((s.act a).monitor.topology.revision = s.monitor.topology.revision + 1 ∧
          ¬ s.monitor.topology.SameElements (s.act a).monitor.topology)) := by
  obtain ⟨_, _, hact⟩ := s.exists_act_eq a
  rw [hact]
  cases a with
  | event e =>
    rw [Action.compiles, Bool.not_eq_true', Bool.not_eq_false] at h
    rw [Monitor.watch, h]
    exact ⟨rfl, .inl rfl⟩
  | setLane fork exit active =>
    rw [Monitor.watch]
    cases hchange : s.monitor.topology.setLane fork exit active with
    | error e => exact ⟨rfl, .inl rfl⟩
    | ok change =>
      refine ⟨rfl, (Topology.revision_of_setLane hchange).imp_right ?_⟩
      rintro ⟨hnext, hne⟩
      exact ⟨hnext, hne hkeyed⟩
  | attach => exact ⟨rfl, .inl rfl⟩
  | dispatch => exact ⟨rfl, .inl rfl⟩
  | geometry => exact absurd rfl h
  | solve => exact absurd rfl h

/-- The call compiles the facts about the crossing, because the cache has none of the present
revision. -/
def recompiles (s : Session) (a : Action) : Bool :=
  a.compiles && s.monitor.cache.isStale s.monitor.topology.revision

/-- One of the calls has changed elements of the crossing, and none has needed the facts since. -/
def ChangedSinceCompile (s : Session) (actions : List Action) : Prop :=
  ∃ earlier a later, actions = earlier ++ a :: later ∧ (∀ b ∈ later, ¬ b.compiles = true) ∧
    ¬ (s.run earlier).monitor.topology.SameElements ((s.run earlier).act a).monitor.topology

theorem not_changedSinceCompile_nil (s : Session) : ¬ s.ChangedSinceCompile [] := by
  rintro ⟨earlier, a, later, heq, -, -⟩
  exact List.append_ne_nil_of_right_ne_nil _ (List.cons_ne_nil _ _) heq.symm

theorem changedSinceCompile_concat (s : Session) (actions : List Action) (a : Action) :
    s.ChangedSinceCompile (actions ++ [a]) ↔
      ¬ (s.run actions).monitor.topology.SameElements
          ((s.run actions).act a).monitor.topology ∨
        (¬ a.compiles = true ∧ s.ChangedSinceCompile actions) := by
  constructor
  · rintro ⟨earlier, b, later, heq, hlater, hchanged⟩
    rcases List.eq_nil_or_concat later with rfl | ⟨later, c, rfl⟩
    · obtain ⟨rfl, hsingle⟩ := List.append_inj' heq rfl
      obtain rfl := List.singleton_inj.1 hsingle
      exact .inl hchanged
    · have hsplit : actions ++ [a] = earlier ++ b :: later ++ [c] := by simpa using heq
      obtain ⟨rfl, hsingle⟩ := List.append_inj' hsplit rfl
      obtain rfl := List.singleton_inj.1 hsingle
      rw [List.concat_eq_append, List.forall_mem_append] at hlater
      obtain ⟨hlater, hlast⟩ := hlater
      exact .inr ⟨hlast a (List.mem_singleton_self a), earlier, b, later, rfl, hlater, hchanged⟩
  · rintro (hchanged | ⟨ha, earlier, b, later, rfl, hlater, hchanged⟩)
    · exact ⟨actions, a, [], rfl, nofun, hchanged⟩
    · refine ⟨earlier, b, later ++ [a], by simp, ?_, hchanged⟩
      exact List.forall_mem_append.2 ⟨hlater, List.forall_mem_singleton.2 ha⟩

/-- The facts in the cache belong to the present revision, unless elements have changed since they
were compiled. -/
def Tracks (s : Session) (actions : List Action) : Prop :=
  ∃ revision facts, (s.run actions).monitor.cache.entry? = some (revision, facts) ∧
    revision ≤ (s.run actions).monitor.topology.revision ∧
    (revision ≠ (s.run actions).monitor.topology.revision ↔ s.ChangedSinceCompile actions)

theorem Tracks.isStale_iff (h : s.Tracks actions) :
    (s.run actions).monitor.cache.isStale (s.run actions).monitor.topology.revision = true ↔
      s.ChangedSinceCompile actions := by
  obtain ⟨revision, facts, hentry, -, hchanged⟩ := h
  rw [← hchanged, FactsCache.isStale, FactsCache.fresh?, hentry]
  by_cases hrevision : revision = (s.run actions).monitor.topology.revision
  · simp [hrevision]
  · simp [hrevision]

theorem Tracks.concat (h : s.Tracks actions) (hkeyed : (s.run actions).monitor.topology.Keyed)
    (a : Action) : s.Tracks (actions ++ [a]) := by
  obtain ⟨revision, facts, hentry, hle, hchanged⟩ := h
  rw [Tracks, changedSinceCompile_concat, run_append, run_cons, run_nil]
  by_cases ha : a.compiles = true
  · obtain ⟨htopology, hcache⟩ := (s.run actions).act_of_compiles ha
    rw [htopology, hcache]
    refine ⟨_, _, rfl, Nat.le_refl _, iff_of_false (absurd rfl) ?_⟩
    rintro (hne | ⟨hna, -⟩)
    · exact hne (.refl _)
    · exact hna ha
  · obtain ⟨hcache, hsame | ⟨hnext, hne⟩⟩ := act_of_not_compiles hkeyed ha
    · rw [hcache, hsame]
      refine ⟨revision, facts, hentry, hle, hchanged.trans ⟨fun hc ↦ .inr ⟨ha, hc⟩, ?_⟩⟩
      rintro (hne | ⟨-, hc⟩)
      · exact absurd (.refl _) hne
      · exact hc
    · -- The revision in the cache stays behind, since revisions only grow.
      rw [hcache, hnext]
      exact ⟨revision, facts, hentry, by omega, iff_of_true (by omega) (.inl hne)⟩

theorem tracks_run {m : Monitor} (hfresh : m.Fresh) (hbuilt : m.topology.Built)
    (actions : List Action) : (start m).Tracks actions := by
  induction actions using List.reverseRecOn with
  | nil =>
    exact ⟨m.topology.revision, _, congrArg FactsCache.entry? hfresh.cache, Nat.le_refl _,
      iff_of_false (absurd rfl) (not_changedSinceCompile_nil _)⟩
  | append_singleton actions a ih =>
    exact ih.concat (within_run Monitor.stable_built hbuilt actions).monitor.keyed a

end Session

/-- **The facts about the crossing are never out of date, and they are compiled anew only when they
have to be.**  Whatever is called in a session of a monitor for a crossing that the operations have
made:

* the facts that the monitor gives are those of the crossing as it is,
* every program that is solved next has them in its second section, and
* a call compiles them anew exactly if it needs them and some call since they were needed last has
  changed elements of the crossing. -/
theorem geometry_of_session {settings : Settings} {topology : Topology} {probe : Probe}
    {rules : String} {oracle : Oracle} {clock : Nat → Stamp} {m₀ : Monitor}
    (hbuilt : topology.Built)
    (hmake : Monitor.make settings topology probe rules oracle clock = .ok m₀)
    (actions : List Action) :
    let s := (Session.start m₀).run actions
    s.monitor.geometry = .compile s.monitor.topology probe ∧
      ∀ a : Action,
        (∀ solution, s.solved? a = some solution → solution.program =
          .assemble (s.act a).monitor.ledger.text (Facts.compile s.monitor.topology probe).text
            rules) ∧
        (s.recompiles a = true ↔
          a.compiles = true ∧ (Session.start m₀).ChangedSinceCompile actions) := by
  intro s
  obtain ⟨hfresh, rfl, -, rfl⟩ := Monitor.of_make hmake
  obtain rfl := Monitor.probe_of_make hmake
  obtain ⟨hvalid, hsetup⟩ := (Session.within_run
    (Monitor.stable_cacheValid.and (Monitor.stable_sameSetup m₀))
    ⟨hfresh.cacheValid, ⟨rfl, rfl, rfl⟩⟩ actions).monitor
  have hgeometry : s.monitor.geometry = .compile s.monitor.topology m₀.probe := by
    rw [hvalid.geometry_eq, hsetup.probe]
  refine ⟨hgeometry, fun a ↦ ⟨fun solution hsolved ↦ ?_, ?_⟩⟩
  · rw [Session.program_of_solved hsolved, hgeometry, hsetup.rules]
  · rw [Session.recompiles, Bool.and_eq_true,
      (Session.tracks_run hfresh hbuilt actions).isStale_iff]

/-- The facts are compiled anew after the only lane of a crossing has been opened, and then not
again. -/
theorem geometry_of_session_open :
    ∃ (t : Topology) (m₀ : Monitor) (south : ForkId) (north : ExitId),
      let opened : Action := .setLane south north true
      t.Built ∧
        Monitor.make .standard t (fun _ _ ↦ false) "" ⟨"", fun _ _ _ ↦ .crash none⟩
          (fun _ ↦ .ofText "") = .ok m₀ ∧
        ((Session.start m₀).run [opened]).recompiles .solve = true ∧
        ((Session.start m₀).run [opened, .solve]).recompiles .geometry = false := by
  let south : ForkId := ⟨"south", by decide⟩
  let north : ExitId := ⟨"north", by decide⟩
  let ahead : Vec := ⟨1, 0, 0⟩
  have hroad : ((Topology.empty.addFork south ⟨-1, 0, 0⟩ ahead).toOption.bind fun t ↦
      (t.addExit north ahead ahead).toOption.bind fun t ↦
        (t.connect south north).toOption.bind fun t ↦
          (t.setLane south north true).toOption.map fun change ↦
            (t.lanes.isEmpty, change.topology.lanes.isEmpty)) = some (true, false) := by
    decide +kernel
  obtain ⟨_, hfork, hroad⟩ := Option.bind_eq_some_iff.1 hroad
  obtain ⟨_, hexit, hroad⟩ := Option.bind_eq_some_iff.1 hroad
  obtain ⟨t, hconnect, hroad⟩ := Option.bind_eq_some_iff.1 hroad
  obtain ⟨change, hchange, hlanes⟩ := Option.map_eq_some_iff.1 hroad
  obtain ⟨hclosed, hopen⟩ := Prod.mk.inj hlanes
  have hok : ∀ {α : Type} {x : Except CrossingError α} {a : α}, x.toOption = some a →
      x = .ok a := by
    intro α x a h
    cases x with
    | error e => cases h
    | ok b =>
      cases h
      rfl
  have hbuilt : t.Built := ((Topology.Built.empty.addFork (hok hfork)).addExit (hok hexit)).connect
    (hok hconnect)
  obtain ⟨m₀, hmake⟩ := Monitor.exists_make_standard t (fun _ _ ↦ false) ""
    ⟨"", fun _ _ _ ↦ .crash none⟩ fun _ ↦ .ofText ""
  have hactions := geometry_of_session hbuilt hmake
  refine ⟨t, m₀, south, north, hbuilt, hmake, ?_, ?_⟩
  · refine ((hactions _).2 _).2.2 ⟨rfl, [], _, [], rfl, nofun, fun hsame ↦ ?_⟩
    have hact : ((Session.start m₀).act (.setLane south north true)).monitor.topology =
        change.topology := by
      rw [Session.act, Session.start, Monitor.setLane, (Monitor.of_make hmake).2.2.2, hok hchange]
      rfl
    have hlanes := hsame.lanes
    rw [Session.run_nil, hact, Session.start, (Monitor.of_make hmake).2.2.2] at hlanes
    rw [hlanes, hclosed] at hopen
    cases hopen
  · rw [Bool.eq_false_iff, ne_eq, ((hactions _).2 _).2]
    rintro ⟨-, hchanged⟩
    rcases (Session.changedSinceCompile_concat _ [_] _).1 hchanged with hne | ⟨hna, -⟩
    · exact hne (.refl _)
    · exact hna rfl

end RightOfWay
