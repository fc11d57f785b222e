import Mathlib.Data.List.Nodup
import RightOfWay.Proofs.Crossing.Outline

/-!
# What the facts say

The facts about forks and about overlaps come out of loops over pairs, which look at every two
elements once and then decide in which order to name them.

* `bothWays` lists all pairs in both orders (`mem_bothWays`, `nodup_bothWays`).  What the loops give
  is what a test leaves of it: `Facts.namesRight` for forks (`Facts.ofForks_eq`) and
  `Facts.overlapping` for lanes, up to order (`Facts.ofOverlaps_perm`).
* The elements are listed in the order of their identifiers, so that an atom tells which pair it
  came from (`Facts.inj_of_ordered`, `Facts.link_inj`), and no atom comes twice
  (`Facts.nodup_compile`).
* Declared overlaps can be looked up in either order (`DeclaredOverlaps.probe_ofPairs`).
-/

set_option autoImplicit false

namespace RightOfWay

/-! ## Pairs -/

section Pairs

variable {α : Type} {l : List α}

/-- The pairs of elements at different places of the list, each in both orders. -/
def bothWays : List α → List (α × α)
  | [] => []
  | a :: as => as.flatMap (fun b ↦ [(a, b), (b, a)]) ++ bothWays as

theorem mem_bothWays (hnodup : l.Nodup) {p : α × α} :
    p ∈ bothWays l ↔ p.1 ∈ l ∧ p.2 ∈ l ∧ p.1 ≠ p.2 := by
  induction l with
  | nil => simp [bothWays]
  | cons a as ih =>
    obtain ⟨ha, hnodup⟩ := List.nodup_cons.1 hnodup
    obtain ⟨b, c⟩ := p
    rw [bothWays, List.mem_append, List.mem_flatMap, ih hnodup]
    simp only [List.mem_cons, List.not_mem_nil, or_false, Prod.mk.injEq]
    grind

theorem nodup_bothWays (hnodup : l.Nodup) : (bothWays l).Nodup := by
  induction l with
  | nil => exact List.nodup_nil
  | cons a as ih =>
    obtain ⟨ha, hnodup⟩ := List.nodup_cons.1 hnodup
    have hne : ∀ b ∈ as, a ≠ b := fun b hb heq ↦ ha (heq ▸ hb)
    rw [bothWays, List.nodup_append', List.nodup_flatMap]
    refine ⟨⟨fun b hb ↦ ?_, hnodup.imp_of_mem fun {b c} hb hc hbc ↦ ?_⟩, ih hnodup, ?_⟩
    · simp [hne b hb]
    · simp [Function.onFun, hbc.symm, hne b hb]
    · -- the pairs of the other elements do not contain this one
      intro p hp hrest
      obtain ⟨hfst, hsnd, -⟩ := (mem_bothWays hnodup).1 hrest
      obtain ⟨b, -, hp⟩ := List.mem_flatMap.1 hp
      rcases List.mem_pair.1 hp with rfl | rfl
      · exact ha hfst
      · exact ha hsnd

end Pairs

/-! ## Declared overlaps -/

namespace DeclaredOverlaps

/-- Pairs that are not told apart are the same. -/
instance : Std.LawfulEqCmp
    (compareLex (compareOn (Prod.fst (α := LaneId) (β := LaneId))) (compareOn Prod.snd)) where
  eq_of_compare h := by
    obtain ⟨hfst, hsnd⟩ := compareLex_eq_eq.1 h
    exact Prod.ext (Std.LawfulEqOrd.eq_of_compare hfst) (Std.LawfulEqOrd.eq_of_compare hsnd)

theorem sortPair_eq_iff {a b c d : LaneId} :
    sortPair a b = sortPair c d ↔ (c, d) = (a, b) ∨ (c, d) = (b, a) := by
  constructor
  · unfold sortPair
    grind
  · rintro (h | h)
    · cases h
      rfl
    · cases h
      exact sortPair_comm a b

theorem contains_foldl_declare {pairs : List (LaneId × LaneId)} {d : DeclaredOverlaps}
    {p : LaneId × LaneId} :
    (pairs.foldl (fun d (a, b) ↦ d.declare a b) d).pairs.contains p = true ↔
      d.pairs.contains p = true ∨ ∃ q ∈ pairs, p = sortPair q.1 q.2 := by
  induction pairs generalizing d with
  | nil => simp
  | cons q pairs ih =>
    have hdeclare : (d.declare q.1 q.2).pairs.contains p = true ↔
        p = sortPair q.1 q.2 ∨ d.pairs.contains p = true := by
      rw [declare, Std.ExtTreeSet.contains_insert, Bool.or_eq_true, beq_iff_eq,
        Std.LawfulEqCmp.compare_eq_iff_eq, eq_comm]
    rw [List.foldl_cons, ih, hdeclare, List.exists_mem_cons_iff, or_assoc, or_left_comm]

/-- **Lanes overlap if they are declared to, in either order.** -/
theorem probe_ofPairs {pairs : List (LaneId × LaneId)} {a b : Lane} :
    (ofPairs pairs).probe a b = true ↔ (a.id, b.id) ∈ pairs ∨ (b.id, a.id) ∈ pairs := by
  have hempty : empty.pairs.contains (sortPair a.id b.id) = false := Std.ExtTreeSet.contains_empty
  rw [probe, ofPairs, contains_foldl_declare, hempty]
  simp only [Bool.false_eq_true, false_or, sortPair_eq_iff, and_or_left, exists_or]
  simp

theorem probe_ofPairs_congr {pairs pairs' : List (LaneId × LaneId)}
    (h : ∀ p, p ∈ pairs ↔ p ∈ pairs') : (ofPairs pairs).probe = (ofPairs pairs').probe := by
  funext a b
  rw [Bool.eq_iff_iff, probe_ofPairs, probe_ofPairs, h, h]

end DeclaredOverlaps

/-! ## Facts -/

namespace Facts

/-- The atom that relates two identifiers of one role. -/
def link (predicate : String) {r : Role} (i j : Ident r) : Atom :=
  relate predicate [i.constant, j.constant]

/-- Where the lane leads. -/
def leads (l : Lane) : Atom :=
  relate "laneFromTo" [l.id.constant, l.fork.constant, l.exit.constant]

/-- The signal that the lane asks for. -/
def signals (l : Lane) : Atom :=
  relate "laneCorrectSignal" [l.id.constant, l.requiredSignal.constant]

variable {r : Role}

theorem relate_eq_iff {p q : String} {cs ds : List String} :
    relate p cs = relate q ds ↔ p = q ∧ cs = ds := by
  rw [relate, relate, Atom.mk.injEq]
  exact and_congr_right fun _ ↦ List.map_inj_right fun _ _ h ↦ Term.symbol.inj h

theorem link_inj {p : String} {i j i' j' : Ident r} :
    link p i j = link p i' j' ↔ i = i' ∧ j = j' := by
  constructor
  · intro h
    obtain ⟨hfst, hrest⟩ := List.cons.inj (relate_eq_iff.1 h).2
    exact ⟨Ident.constant_injective hfst, Ident.constant_injective (List.cons.inj hrest).1⟩
  · rintro ⟨rfl, rfl⟩
    rfl

/-- The atoms that relate the elements of the pairs. -/
def links {α : Type} (predicate : String) (key : α → Ident r) (ps : List (α × α)) : List Atom :=
  ps.map fun p ↦ link predicate (key p.1) (key p.2)

/-- The facts name this fork as right of the other.  If each is to the right of the other, the
lesser one is named. -/
def namesRight (f g : Fork) : Bool :=
  isOnRight f.forward g.forward && ((compare f.id g.id).isLT || !isOnRight g.forward f.forward)

/-- The probe tells that the lanes overlap, when it is asked with the lesser lane first. -/
def overlapping (probe : Probe) (a b : Lane) : Bool :=
  if compare a.id b.id = .lt then probe a b else probe b a

section Naming

variable {f g : Fork} {a b : Lane} {probe : Probe}

theorem namesRight_of_lt (h : compare f.id g.id = .lt) :
    namesRight f g = isOnRight f.forward g.forward := by
  simp [namesRight, h]

theorem namesRight_of_gt (h : compare f.id g.id = .gt) :
    namesRight f g = (isOnRight f.forward g.forward && !isOnRight g.forward f.forward) := by
  simp [namesRight, h]

theorem isOnRight_of_namesRight (h : namesRight f g = true) :
    isOnRight f.forward g.forward = true :=
  (Bool.and_eq_true_iff.1 h).1

theorem lt_or_lt_of_ne {r : Role} {i j : Ident r} (hne : i ≠ j) :
    compare i j = .lt ∨ compare j i = .lt := by
  rcases h : compare i j with _ | _ | _
  · exact .inl rfl
  · exact absurd (Std.LawfulEqOrd.eq_of_compare h) hne
  · exact .inr (Std.OrientedCmp.lt_of_gt h)

/-- Of two forks at most one is named. -/
theorem namesRight_asymm (h : namesRight f g = true) (hne : f.id ≠ g.id) :
    namesRight g f = false := by
  have hright := isOnRight_of_namesRight h
  rcases lt_or_lt_of_ne hne with hlt | hlt
  · rw [namesRight_of_gt (Std.OrientedCmp.gt_of_lt hlt), hright]
    exact Bool.and_false _
  · rw [namesRight_of_gt (Std.OrientedCmp.gt_of_lt hlt), Bool.and_eq_true_iff] at h
    rw [namesRight_of_lt hlt]
    simpa using h.2

/-- Of two forks one is named if either is to the right of the other. -/
theorem namesRight_or (hne : f.id ≠ g.id) : (namesRight f g = true ∨ namesRight g f = true) ↔
    (isOnRight f.forward g.forward = true ∨ isOnRight g.forward f.forward = true) := by
  rcases lt_or_lt_of_ne hne with hlt | hlt
  · rw [namesRight_of_lt hlt, namesRight_of_gt (Std.OrientedCmp.gt_of_lt hlt)]
    by_cases hright : isOnRight f.forward g.forward = true
    · simp [hright]
    · simp [hright]
  · rw [namesRight_of_lt hlt, namesRight_of_gt (Std.OrientedCmp.gt_of_lt hlt)]
    by_cases hright : isOnRight g.forward f.forward = true
    · simp [hright]
    · simp [hright]

theorem overlapping_of_lt (h : compare a.id b.id = .lt) : overlapping probe a b = probe a b :=
  if_pos h

theorem overlapping_of_gt (h : compare a.id b.id = .gt) : overlapping probe a b = probe b a := by
  rw [overlapping, h]
  exact if_neg nofun

theorem overlapping_comm (hne : a.id ≠ b.id) :
    overlapping probe a b = overlapping probe b a := by
  rcases lt_or_lt_of_ne hne with hlt | hlt
  · rw [overlapping_of_lt hlt, overlapping_of_gt (Std.OrientedCmp.gt_of_lt hlt)]
  · rw [overlapping_of_lt hlt, overlapping_of_gt (Std.OrientedCmp.gt_of_lt hlt)]

end Naming

/-! ## The loops -/

theorem ofForks_eq {fs : List Fork} (h : fs.Pairwise fun f g ↦ compare f.id g.id = .lt) :
    ofForks fs =
      links "isOnRightOf" Fork.id ((bothWays fs).filter fun p ↦ namesRight p.1 p.2) := by
  induction fs with
  | nil => rfl
  | cons f fs ih =>
    obtain ⟨hf, h⟩ := List.pairwise_cons.1 h
    rw [ofForks, ih h, bothWays, List.filter_append, links, links, List.map_append,
      List.filter_flatMap, List.map_flatMap]
    refine congrArg (· ++ _) (List.flatMap_congr fun g hg ↦ ?_)
    have hfirst := namesRight_of_lt (hf g hg)
    have hsecond := namesRight_of_gt (Std.OrientedCmp.gt_of_lt (hf g hg))
    by_cases hright : isOnRight f.forward g.forward = true
    · simp [rightOf, link, hfirst, hsecond, hright]
    · by_cases hleft : isOnRight g.forward f.forward = true
      · simp [rightOf, link, hfirst, hsecond, hright, hleft]
      · simp [rightOf, hfirst, hsecond, hright, hleft]

theorem ofOverlaps_perm (probe : Probe) {ls : List Lane}
    (h : ls.Pairwise fun a b ↦ compare a.id b.id = .lt) :
    (ofOverlaps probe ls).Perm (links "overlaps" Lane.id
      (ls.map (fun l ↦ (l, l)) ++ (bothWays ls).filter fun p ↦ overlapping probe p.1 p.2)) := by
  induction ls with
  | nil => exact .nil
  | cons l ls ih =>
    obtain ⟨hl, h⟩ := List.pairwise_cons.1 h
    have hfirst : ls.flatMap (fun m ↦ if probe l m then [overlap l m, overlap m l] else []) =
        links "overlaps" Lane.id ((ls.flatMap fun m ↦ [(l, m), (m, l)]).filter
          fun p ↦ overlapping probe p.1 p.2) := by
      rw [links, List.filter_flatMap, List.map_flatMap]
      refine List.flatMap_congr fun m hm ↦ ?_
      have hforth : overlapping probe l m = probe l m := overlapping_of_lt (hl m hm)
      have hback : overlapping probe m l = probe l m :=
        overlapping_of_gt (Std.OrientedCmp.gt_of_lt (hl m hm))
      by_cases hprobe : probe l m = true
      · simp [overlap, link, hforth, hback, hprobe]
      · simp [hforth, hback, hprobe]
    rw [ofOverlaps, hfirst, bothWays, List.filter_append]
    simp only [links, List.map_cons, List.cons_append, List.map_append] at ih ⊢
    exact .cons _ (((ih h).append_left _).trans (List.perm_append_comm_assoc _ _ _))

variable {α : Type} {key : α → Ident r} {l : List α} {i j : Ident r}

theorem link_mem_links {predicate : String} {ps : List (α × α)} :
    link predicate i j ∈ links predicate key ps ↔ ∃ p ∈ ps, key p.1 = i ∧ key p.2 = j := by
  rw [links, List.mem_map]
  simp only [link_inj]

/-- Elements that are listed in the order of their keys are determined by these. -/
theorem inj_of_ordered (h : l.Pairwise fun a b ↦ compare (key a) (key b) = .lt) :
    l.Nodup ∧ ∀ a ∈ l, ∀ b ∈ l, key a = key b → a = b := by
  have hnodup : (l.map key).Nodup := by
    refine List.pairwise_map.2 (h.imp fun {a b} hlt heq ↦ ?_)
    simp [heq] at hlt
  exact ⟨hnodup.of_map, (List.nodup_map_iff_inj_on hnodup.of_map).1 hnodup⟩

theorem nodup_links {predicate : String} {ps : List (α × α)}
    (h : l.Pairwise fun a b ↦ compare (key a) (key b) = .lt) (hps : ps.Nodup)
    (hmem : ∀ p ∈ ps, p.1 ∈ l ∧ p.2 ∈ l) : (links predicate key ps).Nodup := by
  obtain ⟨-, hinj⟩ := inj_of_ordered h
  refine List.Nodup.map_on (fun p hp q hq hpq ↦ ?_) hps
  obtain ⟨hfst, hsnd⟩ := link_inj.1 hpq
  exact Prod.ext (hinj _ (hmem p hp).1 _ (hmem q hq).1 hfst)
    (hinj _ (hmem p hp).2 _ (hmem q hq).2 hsnd)

theorem predicate_of_mem_links {predicate : String} {ps : List (α × α)} {a : Atom}
    (h : a ∈ links predicate key ps) : a.predicate = predicate := by
  obtain ⟨p, -, rfl⟩ := List.mem_map.1 h
  rfl

/-! ## The facts about a topology -/

section Compiled

variable {t : Topology} {probe : Probe} {a : Atom}

theorem ofForks_values (ht : t.Consistent) : ofForks t.forks.values = links "isOnRightOf" Fork.id
    ((bothWays t.forks.values).filter fun p ↦ namesRight p.1 p.2) :=
  ofForks_eq (pairwise_values ht.keyed)

theorem ofOverlaps_values (ht : t.Consistent) : (ofOverlaps probe t.lanes.values).Perm
    (links "overlaps" Lane.id (t.lanes.values.map (fun l ↦ (l, l)) ++
      (bothWays t.lanes.values).filter fun p ↦ overlapping probe p.1 p.2)) :=
  ofOverlaps_perm probe (pairwise_values ht.lane_id)

theorem mem_compile : a ∈ (compile t probe).atoms ↔ a ∈ ofForks t.forks.values ∨
    (∃ lane ∈ t.lanes.values, a = leads lane ∨ a = signals lane) ∨
      a ∈ ofOverlaps probe t.lanes.values := by
  simp [compile, ofLane, leads, signals]

theorem predicate_of_mem_ofForks (ht : t.Consistent) (h : a ∈ ofForks t.forks.values) :
    a.predicate = "isOnRightOf" :=
  predicate_of_mem_links (ofForks_values ht ▸ h)

theorem predicate_of_mem_ofLanes (h : a ∈ t.lanes.values.flatMap ofLane) :
    a.predicate = "laneFromTo" ∨ a.predicate = "laneCorrectSignal" := by
  obtain ⟨lane, -, ha⟩ := List.mem_flatMap.1 h
  rcases List.mem_pair.1 ha with rfl | rfl
  · exact .inl rfl
  · exact .inr rfl

theorem predicate_of_mem_ofOverlaps (ht : t.Consistent)
    (h : a ∈ ofOverlaps probe t.lanes.values) : a.predicate = "overlaps" :=
  predicate_of_mem_links ((ofOverlaps_values ht).mem_iff.1 h)

/-- Two forks are linked if they are registered and the first is the one to be named. -/
theorem rightOf_mem_compile (ht : t.Consistent) {r l : ForkId} :
    link "isOnRightOf" r l ∈ (compile t probe).atoms ↔ ∃ f g, t.forks[r]? = some f ∧
      t.forks[l]? = some g ∧ r ≠ l ∧ namesRight f g = true := by
  obtain ⟨hnodup, hinj⟩ := inj_of_ordered (pairwise_values ht.keyed)
  rw [mem_compile, or_iff_left, ofForks_values ht, link_mem_links]
  · simp only [List.mem_filter, mem_bothWays hnodup]
    constructor
    · rintro ⟨⟨f, g⟩, ⟨⟨hf, hg, hne⟩, hnames⟩, rfl, rfl⟩
      exact ⟨f, g, (mem_values_of_keyed ht.keyed).1 hf, (mem_values_of_keyed ht.keyed).1 hg,
        fun hid ↦ hne (hinj f hf g hg hid), hnames⟩
    · rintro ⟨f, g, hf, hg, hne, hnames⟩
      obtain rfl := ht.keyed r f hf
      obtain rfl := ht.keyed l g hg
      exact ⟨(f, g), ⟨⟨mem_values.2 ⟨_, hf⟩, mem_values.2 ⟨_, hg⟩, fun h ↦ hne (congrArg _ h)⟩,
        hnames⟩, rfl, rfl⟩
  · rintro (⟨lane, -, h | h⟩ | h)
    · exact absurd (relate_eq_iff.1 h).1 (by decide)
    · exact absurd (relate_eq_iff.1 h).1 (by decide)
    · exact absurd (predicate_of_mem_ofOverlaps ht h) (by decide : "isOnRightOf" ≠ "overlaps")

/-- Two lanes are linked if they are open and are one lane or lanes that overlap. -/
theorem overlaps_mem_compile (ht : t.Consistent) {a b : LaneId} :
    link "overlaps" a b ∈ (compile t probe).atoms ↔ ∃ l m, t.lanes[a]? = some l ∧
      t.lanes[b]? = some m ∧ (a = b ∨ overlapping probe l m = true) := by
  obtain ⟨hnodup, hinj⟩ := inj_of_ordered (pairwise_values ht.lane_id)
  rw [mem_compile, or_iff_right, or_iff_right, (ofOverlaps_values ht).mem_iff, link_mem_links]
  · simp only [List.mem_append, List.mem_map, List.mem_filter, mem_bothWays hnodup]
    constructor
    · rintro ⟨⟨l, m⟩, ⟨k, hk, hkk⟩ | ⟨⟨hl, hm, -⟩, hover⟩, rfl, rfl⟩
      · cases hkk
        have hl := (mem_values_of_keyed ht.lane_id).1 hk
        exact ⟨l, l, hl, hl, .inl rfl⟩
      · exact ⟨l, m, (mem_values_of_keyed ht.lane_id).1 hl, (mem_values_of_keyed ht.lane_id).1 hm,
          .inr hover⟩
    · rintro ⟨l, m, hl, hm, heq⟩
      obtain rfl := ht.lane_id a l hl
      obtain rfl := ht.lane_id b m hm
      have hl := mem_values.2 ⟨_, hl⟩
      have hm := mem_values.2 ⟨_, hm⟩
      refine ⟨(l, m), ?_, rfl, rfl⟩
      by_cases hlm : l = m
      · exact .inl ⟨l, hl, congrArg _ hlm⟩
      · exact .inr ⟨⟨hl, hm, hlm⟩, heq.resolve_left fun hid ↦ hlm (hinj l hl m hm hid)⟩
  · rintro ⟨lane, -, h | h⟩
    · exact absurd (relate_eq_iff.1 h).1 (by decide)
    · exact absurd (relate_eq_iff.1 h).1 (by decide)
  · intro h
    exact absurd (predicate_of_mem_ofForks ht h) (by decide : "overlaps" ≠ "isOnRightOf")

theorem nodup_ofForks (ht : t.Consistent) : (ofForks t.forks.values).Nodup := by
  have hordered := pairwise_values ht.keyed
  obtain ⟨hnodup, -⟩ := inj_of_ordered hordered
  rw [ofForks_values ht]
  refine nodup_links hordered ((nodup_bothWays hnodup).filter _) fun p hp ↦ ?_
  obtain ⟨hfst, hsnd, -⟩ := (mem_bothWays hnodup).1 (List.mem_of_mem_filter hp)
  exact ⟨hfst, hsnd⟩

theorem nodup_ofLanes (ht : t.Consistent) : (t.lanes.values.flatMap ofLane).Nodup := by
  obtain ⟨hnodup, hinj⟩ := inj_of_ordered (pairwise_values ht.lane_id)
  refine List.nodup_flatMap.2 ⟨fun lane _ ↦ ?_, hnodup.imp_of_mem fun {l m} hl hm hne a ha hb ↦ ?_⟩
  · simp [ofLane, relate_eq_iff]
  · -- the first constant is that of the lane
    refine hne (hinj l hl m hm (Ident.constant_injective ?_))
    rcases List.mem_pair.1 ha with rfl | rfl <;> rcases List.mem_pair.1 hb with h | h <;>
      exact (List.cons.inj (relate_eq_iff.1 h).2).1

theorem nodup_ofOverlaps (ht : t.Consistent) : (ofOverlaps probe t.lanes.values).Nodup := by
  have hordered := pairwise_values ht.lane_id
  obtain ⟨hnodup, -⟩ := inj_of_ordered hordered
  rw [(ofOverlaps_values ht).nodup_iff]
  have hmem : ∀ p, p ∈ (bothWays t.lanes.values).filter (fun p ↦ overlapping probe p.1 p.2) →
      p.1 ∈ t.lanes.values ∧ p.2 ∈ t.lanes.values ∧ p.1 ≠ p.2 :=
    fun p hp ↦ (mem_bothWays hnodup).1 (List.mem_of_mem_filter hp)
  refine nodup_links hordered ?_ fun p hp ↦ ?_
  · refine (hnodup.map fun l m h ↦ congrArg Prod.fst h).append ((nodup_bothWays hnodup).filter _) ?_
    intro p hsame hother
    obtain ⟨l, -, rfl⟩ := List.mem_map.1 hsame
    exact (hmem _ hother).2.2 rfl
  · rcases List.mem_append.1 hp with hsame | hother
    · obtain ⟨l, hl, rfl⟩ := List.mem_map.1 hsame
      exact ⟨hl, hl⟩
    · exact ⟨(hmem p hother).1, (hmem p hother).2.1⟩

/-- No fact is stated twice. -/
theorem nodup_compile (ht : t.Consistent) : (compile t probe).atoms.Nodup := by
  refine ((nodup_ofForks ht).append (nodup_ofLanes ht) fun a ha hb ↦ ?_).append
    (nodup_ofOverlaps ht) fun a ha hb ↦ ?_
  · have hpredicate := predicate_of_mem_ofForks ht ha
    rcases predicate_of_mem_ofLanes hb with h | h
    · exact absurd (hpredicate.symm.trans h) (by decide)
    · exact absurd (hpredicate.symm.trans h) (by decide)
  · have hpredicate := predicate_of_mem_ofOverlaps ht hb
    rcases List.mem_append.1 ha with ha | ha
    · exact absurd (hpredicate.symm.trans (predicate_of_mem_ofForks ht ha)) (by decide)
    · rcases predicate_of_mem_ofLanes ha with h | h
      · exact absurd (hpredicate.symm.trans h) (by decide)
      · exact absurd (hpredicate.symm.trans h) (by decide)

/-- What the facts say of another kind, they say of the lanes one by one. -/
theorem filter_compile (ht : t.Consistent) {predicate : String} (hright : "isOnRightOf" ≠ predicate)
    (hoverlaps : "overlaps" ≠ predicate) :
    (compile t probe).atoms.filter (·.predicate == predicate) =
      t.lanes.values.flatMap fun lane ↦ (ofLane lane).filter (·.predicate == predicate) := by
  have hforks : (ofForks t.forks.values).filter (·.predicate == predicate) = [] := by
    refine List.filter_eq_nil_iff.2 fun a ha ↦ ?_
    simpa [predicate_of_mem_ofForks ht ha] using hright
  have hlanes : (ofOverlaps probe t.lanes.values).filter (·.predicate == predicate) = [] := by
    refine List.filter_eq_nil_iff.2 fun a ha ↦ ?_
    simpa [predicate_of_mem_ofOverlaps ht ha] using hoverlaps
  rw [compile, List.filter_append, List.filter_append, hforks, hlanes, List.nil_append,
    List.append_nil, List.filter_flatMap]

theorem filter_leads (ht : t.Consistent) :
    (compile t probe).atoms.filter (·.predicate == "laneFromTo") = t.lanes.values.map leads := by
  rw [filter_compile ht (by decide) (by decide), List.map_eq_flatMap]
  rfl

theorem filter_signals (ht : t.Consistent) :
    (compile t probe).atoms.filter (·.predicate == "laneCorrectSignal") =
      t.lanes.values.map signals := by
  rw [filter_compile ht (by decide) (by decide), List.map_eq_flatMap]
  rfl

section Links

variable {r l : ForkId} {f g : Fork} {a b : LaneId} {k m : Lane}

theorem rightOf_mem_compile_iff (ht : t.Consistent) (hf : t.forks[r]? = some f)
    (hg : t.forks[l]? = some g) (hne : r ≠ l) :
    link "isOnRightOf" r l ∈ (compile t probe).atoms ↔ namesRight f g = true := by
  rw [rightOf_mem_compile ht]
  simp [hf, hg, hne]

theorem overlaps_mem_compile_iff (ht : t.Consistent) (hk : t.lanes[a]? = some k)
    (hm : t.lanes[b]? = some m) : link "overlaps" a b ∈ (compile t probe).atoms ↔
      a = b ∨ overlapping probe k m = true := by
  rw [overlaps_mem_compile ht]
  simp [hk, hm]

/-- Forks are not linked in both orders. -/
theorem rightOf_asymm (ht : t.Consistent)
    (h : link "isOnRightOf" r l ∈ (compile t probe).atoms) :
    link "isOnRightOf" l r ∉ (compile t probe).atoms := by
  obtain ⟨f, g, hf, hg, hne, hnames⟩ := (rightOf_mem_compile ht).1 h
  rw [rightOf_mem_compile_iff ht hg hf hne.symm, namesRight_asymm hnames]
  · exact Bool.false_ne_true
  · rwa [ht.keyed r f hf, ht.keyed l g hg]

theorem rightOf_or (ht : t.Consistent) (hf : t.forks[r]? = some f) (hg : t.forks[l]? = some g)
    (hne : r ≠ l) :
    (link "isOnRightOf" r l ∈ (compile t probe).atoms ∨
      link "isOnRightOf" l r ∈ (compile t probe).atoms) ↔
        (isOnRight f.forward g.forward = true ∨ isOnRight g.forward f.forward = true) := by
  rw [rightOf_mem_compile_iff ht hf hg hne, rightOf_mem_compile_iff ht hg hf hne.symm,
    namesRight_or]
  rwa [ht.keyed r f hf, ht.keyed l g hg]

/-- Lanes overlap themselves if they are open. -/
theorem overlaps_self (ht : t.Consistent) :
    link "overlaps" a a ∈ (compile t probe).atoms ↔ a ∈ t.lanes := by
  rw [overlaps_mem_compile ht]
  constructor
  · rintro ⟨k, -, hk, -⟩
    exact of_getElem?_eq_some hk
  · intro ha
    exact ⟨_, _, getElem?_pos _ _ ha, getElem?_pos _ _ ha, .inl rfl⟩

/-- Lanes are linked in both orders or not at all. -/
theorem overlaps_symm (ht : t.Consistent) (h : link "overlaps" a b ∈ (compile t probe).atoms) :
    link "overlaps" b a ∈ (compile t probe).atoms := by
  obtain ⟨k, m, hk, hm, heq⟩ := (overlaps_mem_compile ht).1 h
  rw [overlaps_mem_compile_iff ht hm hk]
  by_cases hab : a = b
  · exact .inl hab.symm
  · have hne : m.id ≠ k.id := by
      rw [ht.lane_id a k hk, ht.lane_id b m hm]
      exact fun hba ↦ hab hba.symm
    rw [overlapping_comm hne]
    exact .inr (heq.resolve_left hab)

theorem overlaps_mem_compile_of_lt (ht : t.Consistent) (hk : t.lanes[a]? = some k)
    (hm : t.lanes[b]? = some m) (hlt : compare a b = .lt) :
    link "overlaps" a b ∈ (compile t probe).atoms ↔ probe k m = true := by
  rw [overlaps_mem_compile_iff ht hk hm, overlapping_of_lt, or_iff_right]
  · rintro rfl
    rw [Std.ReflOrd.compare_self] at hlt
    cases hlt
  · rwa [ht.lane_id a k hk, ht.lane_id b m hm]

/-- With declared overlaps, different lanes are linked as they are declared to overlap. -/
theorem overlaps_mem_compile_declared (ht : t.Consistent) {pairs : List (LaneId × LaneId)}
    (ha : a ∈ t.lanes) (hb : b ∈ t.lanes) (hne : a ≠ b) :
    link "overlaps" a b ∈ (compile t (DeclaredOverlaps.ofPairs pairs).probe).atoms ↔
      (a, b) ∈ pairs ∨ (b, a) ∈ pairs := by
  obtain ⟨k, hk⟩ : ∃ k, t.lanes[a]? = some k := ⟨_, getElem?_pos _ _ ha⟩
  obtain ⟨m, hm⟩ : ∃ m, t.lanes[b]? = some m := ⟨_, getElem?_pos _ _ hb⟩
  have hover : overlapping (DeclaredOverlaps.ofPairs pairs).probe k m =
      (DeclaredOverlaps.ofPairs pairs).probe k m := by
    rw [overlapping, DeclaredOverlaps.probe_comm _ m k, ite_self]
  rw [overlaps_mem_compile_iff ht hk hm, or_iff_right hne, hover, DeclaredOverlaps.probe_ofPairs,
    ht.lane_id a k hk, ht.lane_id b m hm]

end Links

end Compiled

end Facts

/-- The lanes of a topology are the open ones, each as its places give it. -/
theorem Topology.Built.getElem?_lanes_iff {t : Topology} (ht : t.Built) {id : LaneId}
    {lane : Lane} : t.lanes[id]? = some lane ↔
      lane.id = id ∧ t.IsOpen lane.fork lane.exit ∧ t.Joins lane := by
  constructor
  · intro hlane
    exact ⟨ht.consistent.lane_id id lane hlane,
      ⟨_, ht.consistent.hasSlot id lane hlane, rfl, rfl⟩, ht.joined id lane hlane⟩
  · rintro ⟨rfl, hopen, hjoins⟩
    have hslot := ht.consistent.isOpen_iff.1 hopen
    obtain ⟨-, lane', hlane', hfork, hexit⟩ := ht.consistent.exists_lane _ _ _ hslot
    obtain rfl := (ht.joined _ _ hlane').eq hjoins hfork hexit
    rwa [ht.consistent.lane_id _ _ hlane']

/-- **The facts about a crossing say exactly how its places and lanes are related.**  Take any
operations, successful or not, and any probe, symmetric or not.

* No fact is stated twice.
* A fork is named as right of another registered one only if it is to the right of it, and not in
  both orders.  One of two registered forks is named if and only if either is to the right of the
  other.
* The lanes are the open ones, each as its places give it, and for each there is one fact on where
  it leads and one on its signal.
* Open lanes and no others overlap themselves, lanes overlap in both orders or not at all, and the
  answer of the probe for the lesser lane and the greater one decides.
* There are no other facts.
* With declared overlaps, different open lanes overlap if and only if they are declared to, in
  whatever order. -/
theorem Facts.compile_exact (operations : List Topology.Operation) (probe : Probe) :
    let t := Topology.after operations
    let facts := (compile t probe).atoms
    facts.Nodup ∧
    (∀ r l : ForkId, link "isOnRightOf" r l ∈ facts →
      r ≠ l ∧ link "isOnRightOf" l r ∉ facts ∧ ∃ f g, t.forks[r]? = some f ∧
        t.forks[l]? = some g ∧ isOnRight f.forward g.forward = true) ∧
    (∀ (r l : ForkId) (f g : Fork), t.forks[r]? = some f → t.forks[l]? = some g → r ≠ l →
      (link "isOnRightOf" r l ∈ facts ∨ link "isOnRightOf" l r ∈ facts ↔
        isOnRight f.forward g.forward = true ∨ isOnRight g.forward f.forward = true)) ∧
    (∀ (id : LaneId) (lane : Lane), t.lanes[id]? = some lane ↔
      lane.id = id ∧ t.IsOpen lane.fork lane.exit ∧ t.Joins lane) ∧
    facts.filter (·.predicate == "laneFromTo") = t.lanes.values.map leads ∧
    facts.filter (·.predicate == "laneCorrectSignal") = t.lanes.values.map signals ∧
    (∀ a : LaneId, link "overlaps" a a ∈ facts ↔ a ∈ t.lanes) ∧
    (∀ a b : LaneId, link "overlaps" a b ∈ facts →
      a ∈ t.lanes ∧ b ∈ t.lanes ∧ link "overlaps" b a ∈ facts) ∧
    (∀ (a b : LaneId) (l m : Lane), t.lanes[a]? = some l → t.lanes[b]? = some m →
      compare a b = .lt → (link "overlaps" a b ∈ facts ↔ probe l m = true)) ∧
    (∀ a ∈ facts, (∃ r l : ForkId, a = link "isOnRightOf" r l) ∨
      (∃ lane ∈ t.lanes.values, a = leads lane ∨ a = signals lane) ∨
        ∃ l m : LaneId, a = link "overlaps" l m) ∧
    ∀ pairs : List (LaneId × LaneId),
      let declared := (compile t (DeclaredOverlaps.ofPairs pairs).probe).atoms
      (∀ a ∈ t.lanes, ∀ b ∈ t.lanes, a ≠ b →
        (link "overlaps" a b ∈ declared ↔ (a, b) ∈ pairs ∨ (b, a) ∈ pairs)) ∧
      ∀ pairs' : List (LaneId × LaneId), pairs.Perm pairs' →
        (compile t (DeclaredOverlaps.ofPairs pairs').probe).atoms = declared := by
  intro t facts
  have ht : t.Built := Topology.built_after operations
  have hc := ht.consistent
  refine ⟨nodup_compile hc, fun r l h ↦ ?_, fun r l f g ↦ rightOf_or hc,
    fun id lane ↦ ht.getElem?_lanes_iff, filter_leads hc, filter_signals hc,
    fun a ↦ overlaps_self hc, fun a b h ↦ ?_, fun a b k m ↦ overlaps_mem_compile_of_lt hc,
    fun a ha ↦ ?_,
    fun pairs ↦ ⟨fun a ha b hb ↦ overlaps_mem_compile_declared hc ha hb, fun pairs' hperm ↦ ?_⟩⟩
  · obtain ⟨f, g, hf, hg, hne, hnames⟩ := (rightOf_mem_compile hc).1 h
    exact ⟨hne, rightOf_asymm hc h, f, g, hf, hg, isOnRight_of_namesRight hnames⟩
  · obtain ⟨k, m, hk, hm, -⟩ := (overlaps_mem_compile hc).1 h
    exact ⟨of_getElem?_eq_some hk, of_getElem?_eq_some hm, overlaps_symm hc h⟩
  · rcases mem_compile.1 ha with hright | hlane | hoverlaps
    · rw [ofForks_values hc] at hright
      obtain ⟨p, -, rfl⟩ := List.mem_map.1 hright
      exact .inl ⟨_, _, rfl⟩
    · exact .inr (.inl hlane)
    · obtain ⟨p, -, rfl⟩ := List.mem_map.1 ((ofOverlaps_values hc).mem_iff.1 hoverlaps)
      exact .inr (.inr ⟨_, _, rfl⟩)
  · rw [DeclaredOverlaps.probe_ofPairs_congr fun p ↦ hperm.mem_iff]

namespace Bend

def barn : ForkId := ⟨"barn", by decide⟩

/-- The bend with a side road. -/
def junction : List Topology.Operation :=
  places ++ [.addFork barn ⟨0, -1000, 0⟩ ⟨0, 1, 0⟩, .connectAll, .setLane farm mill true,
    .setLane barn church true]

end Bend

/-- Traffic from the farm and from the barn is related, and so are the lanes that cross, though they
have been declared the other way around. -/
theorem Facts.compile_exact_junction :
    let t := Topology.after Bend.junction
    let crossing : List (LaneId × LaneId) :=
      [(.between Bend.farm Bend.mill, .between Bend.barn Bend.church)]
    let facts := (compile t (DeclaredOverlaps.ofPairs crossing).probe).atoms
    (link "isOnRightOf" Bend.farm Bend.barn ∈ facts ∨
      link "isOnRightOf" Bend.barn Bend.farm ∈ facts) ∧
    link "overlaps" (.between Bend.barn Bend.church) (.between Bend.farm Bend.mill) ∈ facts ∧
    link "overlaps" (.between Bend.farm Bend.mill) (.between Bend.barn Bend.church) ∈ facts := by
  intro t crossing facts
  obtain ⟨-, -, hright, -, -, -, -, hsymm, -, -, hdeclared⟩ :=
    compile_exact Bend.junction (DeclaredOverlaps.ofPairs crossing).probe
  have hforks : (t.forks[Bend.farm]?.bind fun f ↦ t.forks[Bend.barn]?.map fun g ↦
      isOnRight f.forward g.forward) = some true := by decide +kernel
  obtain ⟨f, hf, hrest⟩ := Option.bind_eq_some_iff.1 hforks
  obtain ⟨g, hg, hfg⟩ := Option.map_eq_some_iff.1 hrest
  have hoverlaps := ((hdeclared crossing).1 (.between Bend.barn Bend.church) (by decide +kernel)
    (.between Bend.farm Bend.mill) (by decide +kernel) (by decide)).2
    (.inr (List.mem_singleton_self _))
  exact ⟨(hright _ _ f g hf hg (by decide)).2 (.inl hfg), hoverlaps, (hsymm _ _ hoverlaps).2.2⟩

end RightOfWay
