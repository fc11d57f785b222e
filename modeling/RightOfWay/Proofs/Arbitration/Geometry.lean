import RightOfWay.Proofs.Arbitration.Session
import RightOfWay.Proofs.Crossing.Construction

/-!
# The facts about the crossing are up to date

A monitor compiles the facts about its crossing once for each revision of the topology.  That is
sound because every change of the topology takes the revision up (`Topology.revision_of_setLane`):
the cache never holds facts of a later revision, and facts of the present one are those of the
present topology (`Monitor.CacheValid`).  So what a monitor works with is what compiling anew would
give (`Monitor.CacheValid.geometry_eq`).

Compiled facts come in four forms (`Facts.cases_of_mem_compile`).
-/

set_option autoImplicit false

namespace RightOfWay

namespace Monitor

/-- The cache holds no facts of later revisions, and those of the present one are right. -/
def CacheValid (m : Monitor) : Prop :=
  ∀ revision facts, m.cache.entry? = some (revision, facts) →
    revision ≤ m.topology.revision ∧
      (revision = m.topology.revision → facts = .compile m.topology m.probe)

theorem CacheValid.congr {m m' : Monitor} (h : m.CacheValid) (hcache : m'.cache = m.cache)
    (htopology : m'.topology = m.topology) (hprobe : m'.probe = m.probe) : m'.CacheValid := by
  rw [CacheValid, hcache, htopology, hprobe]
  exact h

/-- **The facts that a monitor works with are those of the crossing as it is.** -/
theorem CacheValid.geometry_eq {m : Monitor} (h : m.CacheValid) :
    m.geometry = .compile m.topology m.probe := by
  rw [geometry, FactsCache.lookup]
  cases hfresh : m.cache.fresh? m.topology.revision with
  | none => rfl
  | some facts =>
    rw [FactsCache.fresh?] at hfresh
    split at hfresh
    · rename_i revision cached hentry
      split at hfresh
      · rename_i hrevision
        cases hfresh
        exact (h revision _ hentry).2 hrevision
      · cases hfresh
    · cases hfresh

theorem CacheValid.of_refresh {m m' : Monitor} (h : m.CacheValid)
    (hcache : m'.cache = m.cache.refresh m.topology m.probe)
    (htopology : m'.topology = m.topology) (hprobe : m'.probe = m.probe) : m'.CacheValid := by
  intro revision facts hentry
  rw [hcache, FactsCache.refresh] at hentry
  cases hentry
  rw [htopology, hprobe]
  exact ⟨Nat.le_refl _, fun _ ↦ h.geometry_eq⟩

theorem stable_cacheValid : Stable CacheValid where
  attach _ _ _ h := h.congr rfl rfl rfl
  record _ _ h := h.congr rfl rfl rfl
  forget _ _ h := h.congr rfl rfl rfl
  setLane m _ _ _ change _ hok h := by
    obtain ⟨hchange, rfl⟩ := setLane_eq_ok hok
    intro revision facts hentry
    obtain ⟨hle, hfacts⟩ := h revision facts hentry
    rcases Topology.revision_of_setLane hchange with hsame | ⟨hnext, -⟩
    · rw [hsame]
      exact ⟨hle, hfacts⟩
    · rw [hnext]
      exact ⟨Nat.le_succ_of_le hle, fun heq ↦ absurd (heq ▸ hle) (Nat.not_succ_le_self _)⟩
  refresh _ h := h.of_refresh rfl rfl rfl
  solve _ h := h.of_refresh rfl rfl rfl
  dispatch m m' h _ := by
    obtain ⟨_, _, heq⟩ := m.dispatch_eq m'.solve.1
    rw [heq]
    exact h.congr rfl rfl rfl

theorem Fresh.cacheValid {m : Monitor} (h : m.Fresh) : m.CacheValid := by
  intro revision facts hentry
  rw [h.cache] at hentry
  cases hentry
  exact ⟨Nat.le_refl _, fun _ ↦ rfl⟩

end Monitor

/-! ## The forms of compiled facts -/

namespace Facts

theorem eq_relate_of_mem_rightOf {f g : Fork} {a : Atom} (h : a ∈ rightOf f g) :
    ∃ f g : ForkId, a = relate "isOnRightOf" [f.constant, g.constant] := by
  rw [rightOf] at h
  split at h
  · exact ⟨f.id, g.id, List.mem_singleton.1 h⟩
  split at h
  · exact ⟨g.id, f.id, List.mem_singleton.1 h⟩
  · exact absurd h List.not_mem_nil

theorem eq_relate_of_mem_ofForks {fs : List Fork} {a : Atom} (h : a ∈ ofForks fs) :
    ∃ f g : ForkId, a = relate "isOnRightOf" [f.constant, g.constant] := by
  induction fs with
  | nil => exact absurd h List.not_mem_nil
  | cons f fs ih =>
    rcases List.mem_append.1 h with hfirst | hrest
    · obtain ⟨g, -, hg⟩ := List.mem_flatMap.1 hfirst
      exact eq_relate_of_mem_rightOf hg
    · exact ih hrest

theorem eq_relate_of_mem_ofOverlaps {probe : Probe} {ls : List Lane} {a : Atom}
    (h : a ∈ ofOverlaps probe ls) :
    ∃ l m : LaneId, a = relate "overlaps" [l.constant, m.constant] := by
  induction ls with
  | nil => exact absurd h List.not_mem_nil
  | cons l ls ih =>
    rcases List.mem_append.1 h with hfirst | hrest
    · rcases List.mem_cons.1 hfirst with rfl | hpair
      · exact ⟨l.id, l.id, rfl⟩
      · obtain ⟨m, -, hm⟩ := List.mem_flatMap.1 hpair
        split at hm
        · rcases List.mem_cons.1 hm with rfl | hm
          · exact ⟨l.id, m.id, rfl⟩
          · exact ⟨m.id, l.id, List.mem_singleton.1 hm⟩
        · exact absurd hm List.not_mem_nil
    · exact ih hrest

/-- Compiled facts are of four forms. -/
theorem cases_of_mem_compile {t : Topology} {probe : Probe} {a : Atom}
    (h : a ∈ (compile t probe).atoms) :
    (∃ f g : ForkId, a = relate "isOnRightOf" [f.constant, g.constant]) ∨
      (∃ (l : LaneId) (f : ForkId) (e : ExitId),
        a = relate "laneFromTo" [l.constant, f.constant, e.constant]) ∨
      (∃ (l : LaneId) (s : Signal), a = relate "laneCorrectSignal" [l.constant, s.constant]) ∨
      ∃ l m : LaneId, a = relate "overlaps" [l.constant, m.constant] := by
  rcases List.mem_append.1 h with h | h
  · rcases List.mem_append.1 h with h | h
    · exact .inl (eq_relate_of_mem_ofForks h)
    · obtain ⟨l, -, hl⟩ := List.mem_flatMap.1 h
      rcases List.mem_cons.1 hl with rfl | hl
      · exact .inr (.inl ⟨_, _, _, rfl⟩)
      · exact .inr (.inr (.inl ⟨_, _, List.mem_singleton.1 hl⟩))
  · exact .inr (.inr (.inr (eq_relate_of_mem_ofOverlaps h)))

end Facts
end RightOfWay
