import RightOfWay.Proofs.Rules.Dependency

/-!
# Who is blamed for a cycle through negation

When `stratify` gives up, it names the predicate whose level was about to pass the limit.  One would
like this to be a predicate that depends on its own negation, and it need not be: in

    p :- not p.
    q :- not p.

the rule for `q` comes second, sees what the first one did in the same round, and is the first to
climb too far (`stratify_downstream`).  **What is blamed negates something that depends on a
cycle**, and that may be the cycle it is on itself (`blamed_of_stratify`).

* A relation from which no cycle through negation can be reached never climbs above its
  `negativeDepth`, whatever the others do (`Levels.Grounded`).  This is below the limit, since the
  relation is not among those it reaches (`negativeDepth_lt_size`).
* Levels are at most at the limit, so that it takes a negation to climb past it.  What is negated is
  at the limit then, and by the first point a cycle can be reached from it.
-/

set_option autoImplicit false

namespace RightOfWay

/-- A cycle that passes a negation can be reached. -/
def ReachesCycle (rules : List Rule) (s : Relation) : Prop :=
  ∃ t, Reaches rules s t ∧ ReachesThroughNegation rules t t

/-- A rule for the predicate negates something from which a cycle that passes a negation can be
reached. -/
def Implicated (rules : List Rule) (predicate : String) : Prop :=
  ∃ s t, s.name = predicate ∧ Negates rules s t ∧ ReachesCycle rules t

variable {rules : List Rule} {s t : Relation}

theorem ReachesThroughNegation.reachesCycle (h : ReachesThroughNegation rules s s) :
    ReachesCycle rules s := ⟨s, .refl, h⟩

theorem Uses.reachesCycle (h : Uses rules s t) (ht : ReachesCycle rules t) :
    ReachesCycle rules s := by
  obtain ⟨u, hreaches, hu⟩ := ht
  exact ⟨u, hreaches.head h, hu⟩

theorem negativeDepth_lt_size (hs : s ∈ relationsOf rules)
    (hself : ¬ ReachesThroughNegation rules s s) :
    negativeDepth rules s < (relationsOf rules).size := by
  have hsub : {t | ReachesThroughNegation rules s t} ⊂ ↑(relationsOf rules).toList.toFinset := by
    refine ⟨fun t ht ↦ ?_, fun hall ↦ hself (hall ?_)⟩
    · simpa using ht.mem_relationsOf
    · simpa using hs
  have hlt := Set.ncard_lt_ncard hsub (Finset.finite_toSet _)
  rw [Set.ncard_coe_finset] at hlt
  refine hlt.trans_le ((List.toFinset_card_le _).trans ?_)
  rw [Std.ExtTreeSet.length_toList]

namespace Levels

/-- Relations from which no cycle through negation can be reached have not climbed above the number
of relations that they reach through a negation. -/
def Grounded (rules : List Rule) (ls : Levels) : Prop :=
  ∀ s, ¬ ReachesCycle rules s → ls.level s ≤ negativeDepth rules s

variable {ls ms : Levels} {r : Rule} {head : Pattern} {predicate : String}

theorem Grounded.required_le (hls : ls.Grounded rules) (hr : r ∈ rules) (hhead : r.head = some head)
    (hfree : ¬ ReachesCycle rules head.relation) :
    ls.required r head ≤ negativeDepth rules head.relation := by
  refine required_le_iff.2 ⟨hls _ hfree, fun l hl ↦ ?_⟩
  cases l with
  | pos p =>
    have huses : Uses rules head.relation p.relation := uses_of_mem hr hhead hl rfl
    exact (hls _ (mt huses.reachesCycle hfree)).trans (negativeDepth_le_of_uses huses)
  | neg p =>
    have hnegates := negates_of_mem hr hhead hl
    have hp := mt hnegates.uses.reachesCycle hfree
    have hself := mt ReachesThroughNegation.reachesCycle hp
    exact (hls _ hp).trans_lt (negativeDepth_lt_of_negates hself hnegates)
  | cmp lhs c rhs => trivial

theorem Grounded.raise {limit : Nat} (hls : ls.Grounded rules) (hr : r ∈ rules)
    (h : ls.raise limit r = .ok ms) : ms.Grounded rules := by
  intro s hs
  obtain hsame | ⟨head, hhead, rfl, hlevel⟩ := level_of_raise h s
  · exact hsame ▸ hls s hs
  · exact hlevel ▸ hls.required_le hr hhead hs

/-- Whatever climbs past the limit negates something that has got there, and only what depends on a
cycle can. -/
theorem Grounded.implicated_of_raise (hls : ls.Grounded rules)
    (hbound : ∀ s, ls.level s ≤ (relationsOf rules).size) (hr : r ∈ rules)
    (h : ls.raise (relationsOf rules).size r = .error predicate) : Implicated rules predicate := by
  rw [Levels.raise] at h
  split at h
  · cases h
  rename_i head hhead
  split at h <;> cases h
  rename_i hover
  obtain ⟨l, hl, hopen⟩ : ∃ l ∈ r.body, ¬ l.Admits ls.level (relationsOf rules).size := by
    by_contra hall
    push Not at hall
    exact Nat.not_le.2 hover (required_le_iff.2 ⟨hbound _, hall⟩)
  cases l with
  | pos p => exact absurd (hbound p.relation) hopen
  | neg p =>
    have hnegates := negates_of_mem hr hhead hl
    refine ⟨head.relation, p.relation, rfl, hnegates, ?_⟩
    by_contra hfree
    have hself := mt ReachesThroughNegation.reachesCycle hfree
    have hbelow := negativeDepth_lt_size hnegates.uses.mem_relationsOf hself
    exact hopen ((hls _ hfree).trans_lt hbelow)
  | cmp lhs c rhs => exact absurd trivial hopen

theorem Grounded.round {limit : Nat} {rs : List Rule} (hrs : rs ⊆ rules) (hls : ls.Grounded rules)
    (h : round limit rs ls = .ok ms) : ms.Grounded rules := by
  induction rs generalizing ls with
  | nil =>
    cases h
    exact hls
  | cons r rs ih =>
    obtain ⟨hr, hrs⟩ := List.cons_subset.1 hrs
    rw [Levels.round] at h
    split at h
    · cases h
    · rename_i ks hks
      exact ih hrs (hls.raise hr hks) h

theorem Grounded.implicated_of_round {rs : List Rule} (hrs : rs ⊆ rules) (hls : ls.Grounded rules)
    (hbound : ∀ s, ls.level s ≤ (relationsOf rules).size)
    (h : Levels.round (relationsOf rules).size rs ls = .error predicate) :
    Implicated rules predicate := by
  induction rs generalizing ls with
  | nil => cases h
  | cons r rs ih =>
    obtain ⟨hr, hrs⟩ := List.cons_subset.1 hrs
    rw [Levels.round] at h
    split at h
    · rename_i hraise
      cases h
      exact hls.implicated_of_raise hbound hr hraise
    · rename_i ks hks
      exact ih hrs (hls.raise hr hks) (level_le_of_raise hks hbound) h

theorem Grounded.implicated_of_settle (hls : ls.Grounded rules)
    (hbound : ∀ s, ls.level s ≤ (relationsOf rules).size)
    (h : settle (relationsOf rules).size rules ls hbound = .error predicate) :
    Implicated rules predicate := by
  fun_induction settle (relationsOf rules).size rules ls hbound with
  | case1 => cases h
  | case2 ls hbound _ predicate hround =>
    cases h
    exact hls.implicated_of_round (List.Subset.refl rules) hbound hround
  | case3 ls hbound _ ms hround ih => exact ih (hls.round (List.Subset.refl rules) hround) h

theorem grounded_empty (rules : List Rule) : Grounded rules ∅ := by
  intro s _
  rw [level_empty]
  exact Nat.zero_le _

end Levels

/-- **The blamed predicate depends on a cycle through negation.**  When `stratify` fails, a rule for
the predicate that it names negates a relation from which a cycle that passes a negation can be
reached.  The predicate is on such a cycle itself wherever every relation is from which one can be
reached. -/
theorem blamed_of_stratify {predicate : String} (h : stratify rules = .error predicate) :
    Implicated rules predicate ∧
      ((∀ s, ReachesCycle rules s → ReachesThroughNegation rules s s) →
        ∃ s, s.name = predicate ∧ ReachesThroughNegation rules s s) := by
  have himplicated := (Levels.grounded_empty rules).implicated_of_settle _ h
  refine ⟨himplicated, fun hall ↦ ?_⟩
  obtain ⟨s, t, hname, hnegates, ht⟩ := himplicated
  exact ⟨s, hname, hall s (hnegates.uses.reachesCycle ht)⟩

/-- A predicate that negates itself, and one that negates the first. -/
def downstream : List Rule :=
  [⟨some ⟨"p", []⟩, [.neg ⟨"p", []⟩], 1⟩, ⟨some ⟨"q", []⟩, [.neg ⟨"p", []⟩], 2⟩]

theorem parseProgram_downstream : parseProgram "p :- not p.\nq :- not p.\n" = .ok downstream := by
  decide +kernel

/-- The second predicate is blamed. -/
theorem stratify_downstream : stratify downstream = .error "q" := by
  have hend : evaluate 0 downstream = .notStratifiable "q" := by decide +kernel
  rw [evaluate] at hend
  split at hend
  · rename_i predicate hfails
    cases hend
    exact hfails
  · dsimp only at hend
    split at hend
    · cases hend
    · split at hend <;> cases hend

theorem eq_of_uses_downstream (h : Uses downstream s t) : t = ⟨"p", 0⟩ := by
  obtain ⟨r, hr, -, l, hl, ht⟩ := h
  simp only [downstream, List.mem_cons, List.not_mem_nil, or_false] at hr
  rcases hr with rfl | rfl
  all_goals
    cases List.mem_singleton.1 hl
    exact (Option.some.inj ht).symm

/-- The rules blame `q`, which no dependency leads back to. -/
theorem blamed_off_cycle :
    parseProgram "p :- not p.\nq :- not p.\n" = .ok downstream ∧
      stratify downstream = .error "q" ∧
      ∀ s, s.name = "q" → ¬ ReachesThroughNegation downstream s s := by
  refine ⟨parseProgram_downstream, stratify_downstream, ?_⟩
  rintro s hname ⟨u, v, -, hnegates, hreaches⟩
  have hp : s = ⟨"p", 0⟩ := by
    rcases hreaches.cases_tail with rfl | ⟨w, -, hlast⟩
    · exact eq_of_uses_downstream hnegates.uses
    · exact eq_of_uses_downstream hlast
  subst hp
  exact absurd hname (by decide)

theorem blamed_of_stratify_downstream :
    stratify downstream = .error "q" ∧ Implicated downstream "q" :=
  ⟨stratify_downstream, (blamed_of_stratify stratify_downstream).1⟩

end RightOfWay
