import RightOfWay.Proofs.Rules.Saturation

/-!
# Joins

`Rule.exists_solution_iff` says for which valuations a body is true.  Here are the bindings that
`solutions` lists themselves: they are what a reader of the rule would write down as its matches,
**each of them once, none missing and none besides** (`solutions_exact`).

* `Rule.Fits` is a match, said without a join: terms for the variables of the positive literals and
  for no others, under which each positive literal is a stored tuple, no stored tuple matches a
  negative one, and all comparisons hold.
* Two bindings of the same variables that agree with one valuation are the same
  (`Binding.eq_of_agrees`).  With that, what is known of valuations carries over to bindings, and no
  binding comes from two tuples (`nodup_solutions`).
* The bindings that get to a comparison have passed all positive literals (`mem_of_mem_solutions`),
  whose variables include those of the comparison.  The underscore does not matter there: a
  comparison with an anonymous variable is never safe, not even if a positive literal binds it.
-/

set_option autoImplicit false

namespace RightOfWay

/-! ## Bindings as valuations of their variables -/

namespace Binding

variable {b c : Binding} {σ : Valuation}

theorem getElem?_eq_of_agrees (hb : b.Agrees σ) (x : String) :
    b[x]? = if x ∈ b then some (σ x) else none := by
  split
  · rename_i hx
    obtain ⟨t, ht⟩ := Option.isSome_iff_exists.1 (Std.ExtTreeMap.mem_iff_isSome_getElem?.1 hx)
    rw [ht, hb x t ht]
  · rename_i hx
    exact Std.ExtTreeMap.getElem?_eq_none hx

/-- A binding is determined by its variables and a valuation that it agrees with. -/
theorem eq_of_agrees (hb : b.Agrees σ) (hc : c.Agrees σ) (h : ∀ x, x ∈ b ↔ x ∈ c) : b = c := by
  refine Std.ExtTreeMap.ext_getElem? fun x ↦ ?_
  simp only [getElem?_eq_of_agrees hb, getElem?_eq_of_agrees hc, h x]

end Binding

/-- A value for each open variable turns the arguments of the pattern into the tuple. -/
def Pattern.Matches (p : Pattern) (b : Binding) (t : Tuple) : Prop :=
  ∃ σ, b.Agrees σ ∧ p.args.map (Arg.value σ) = t

/-! ## No binding comes twice -/

section Solutions

variable {db : Database} {ls : List Literal} {b c : Binding} {σ : Valuation}

/-- Solving only adds to a binding. -/
theorem agrees_of_mem_solutions (hdb : db.WellFormed) (h : c ∈ solutions db ls b)
    (hc : c.Agrees σ) : b.Agrees σ := by
  induction ls generalizing b with
  | nil => rwa [← List.mem_singleton.1 h]
  | cons l ls ih =>
    cases l with
    | pos p =>
      obtain ⟨t, ht, d, hd, h⟩ := mem_solutions_pos.1 h
      have hlen := Database.length_of_mem_tuples hdb ht
      exact ((agrees_of_matchArgs hlen hd σ).1 (ih h)).1
    | neg p =>
      rw [solutions] at h
      split at h
      · cases h
      · exact ih h
    | cmp lhs o rhs =>
      rw [solutions] at h
      split at h
      · split at h
        · exact ih h
        · cases h
      · cases h

/-- Bindings of the same variables that one solution extends are the same. -/
theorem eq_of_mem_solutions (hdb : db.WellFormed) {d e : Binding} (hd : c ∈ solutions db ls d)
    (he : c ∈ solutions db ls e) (h : ∀ x, x ∈ d ↔ x ∈ e) : d = e := by
  obtain ⟨σ, hσ⟩ := c.exists_agrees
  exact Binding.eq_of_agrees (agrees_of_mem_solutions hdb hd hσ)
    (agrees_of_mem_solutions hdb he hσ) h

theorem nodup_tuples (db : Database) (r : Relation) : (db.tuples r).Nodup :=
  (Std.ExtTreeSet.distinct_toList (t := db.relations.getD r ∅)).imp fun h heq ↦
    h (Std.LawfulEqCmp.compare_eq_iff_eq.2 heq)

/-- Different tuples extend a binding differently, and different extensions have no solution in
common. -/
theorem nodup_solutions (hdb : db.WellFormed) : (solutions db ls b).Nodup := by
  induction ls generalizing b with
  | nil => exact List.nodup_singleton b
  | cons l ls ih =>
    cases l with
    | pos p =>
      rw [solutions, List.nodup_flatMap, List.pairwise_filterMap]
      refine ⟨fun _ _ ↦ ih, (nodup_tuples db p.relation).imp_of_mem ?_⟩
      -- a solution common to two extensions makes them one, and then their tuples are the same
      intro t u ht hu hne d hd e he c hcd hce
      have hlent := Database.length_of_mem_tuples hdb ht
      have hlenu := Database.length_of_mem_tuples hdb hu
      have hvars : ∀ x, x ∈ d ↔ x ∈ e := fun x ↦
        (mem_of_matchArgs hlent hd x).trans (mem_of_matchArgs hlenu he x).symm
      obtain rfl : d = e := eq_of_mem_solutions hdb hcd hce hvars
      obtain ⟨σ, hσ⟩ := d.exists_agrees
      have htσ := ((agrees_of_matchArgs hlent hd σ).1 hσ).2
      have huσ := ((agrees_of_matchArgs hlenu he σ).1 hσ).2
      exact hne (htσ.symm.trans huσ)
    | neg p =>
      rw [solutions]
      split
      · exact List.nodup_nil
      · exact ih
    | cmp lhs o rhs =>
      rw [solutions]
      split
      · split
        · exact ih
        · exact List.nodup_nil
      · exact List.nodup_nil

end Solutions

/-! ## The matches of a rule -/

namespace Rule

variable {r : Rule} {db : Database} {b : Binding}

/-- The binding is a match of the rule's body in the database. -/
structure Fits (r : Rule) (db : Database) (b : Binding) : Prop where
  /-- It binds the variables of the positive literals. -/
  mem_iff : ∀ x, x ∈ b ↔ r.Binds x
  /-- The instances of these are stored. -/
  positive : ∀ p, .pos p ∈ r.body → ∃ t ∈ db.tuples p.relation, ground p b = some t
  /-- No stored tuple matches a negative literal, whatever its open variables stand for. -/
  negative : ∀ p, .neg p ∈ r.body → ∀ t ∈ db.tuples p.relation, ¬ p.Matches b t
  /-- The comparisons hold. -/
  comparison : ∀ lhs c rhs, .cmp lhs c rhs ∈ r.body →
    ∃ u v, b.term? lhs = some u ∧ b.term? rhs = some v ∧ c.holds u v = true

theorem mem_solutions_positives_iff (hdb : db.WellFormed) :
    b ∈ RightOfWay.solutions db (r.positives.map .pos) ∅ ↔ (∀ x, x ∈ b ↔ r.Binds x) ∧
      ∀ p, .pos p ∈ r.body → ∃ t ∈ db.tuples p.relation, ground p b = some t := by
  obtain ⟨σ, hσ⟩ := b.exists_agrees
  constructor
  · intro hb
    have hbinds := fun x ↦ mem_iff_binds hdb hb (x := x)
    have hpos := ((exists_solution_positives hdb).1 ⟨b, hb, hσ⟩).2
    refine ⟨hbinds, fun p hp ↦ ⟨p.args.map (Arg.value σ), ?_, ?_⟩⟩
    · exact Database.args_mem_tuples_iff.2 (hpos p (mem_positives.2 hp))
    · exact mapM_term?_eq_some hσ fun x hx ↦ (hbinds x).2 ⟨p, hp, hx⟩
  · rintro ⟨hbinds, hpos⟩
    have hatoms : ∀ p ∈ r.positives, p.atom σ ∈ db.atomSet := by
      intro p hp
      have hp := mem_positives.1 hp
      obtain ⟨t, ht, hground⟩ := hpos p hp
      have hvars : ∀ x, .var x ∈ p.args → x ∈ b := fun x hx ↦ (hbinds x).2 ⟨p, hp, hx⟩
      rw [ground, mapM_term?_eq_some hσ hvars] at hground
      cases hground
      exact Database.args_mem_tuples_iff.1 ht
    obtain ⟨c, hc, hcσ⟩ :=
      (exists_solution_positives hdb).2 ⟨Binding.agrees_empty σ, hatoms⟩
    have hbc : ∀ x, x ∈ b ↔ x ∈ c := fun x ↦ (hbinds x).trans (mem_iff_binds hdb hc).symm
    rwa [Binding.eq_of_agrees hσ hcσ hbc]

theorem passes_neg_iff {p : Pattern} :
    (Literal.neg p).Passes db b ↔ ∀ t ∈ db.tuples p.relation, ¬ p.Matches b t := by
  constructor
  · rintro hpass t ht ⟨σ, hσ, rfl⟩
    exact hpass σ hσ (Database.args_mem_tuples_iff.1 ht)
  · intro hfree σ hσ hmem
    exact hfree _ (Database.args_mem_tuples_iff.2 hmem) ⟨σ, hσ, rfl⟩

theorem mem_solutions_iff_fits (hdb : db.WellFormed) : b ∈ r.solutions db ↔ r.Fits db b := by
  rw [mem_solutions hdb, mem_solutions_positives_iff hdb]
  constructor
  · rintro ⟨⟨hbinds, hpos⟩, hpass⟩
    exact ⟨hbinds, hpos, fun p hp ↦ passes_neg_iff.1 (hpass _ hp rfl),
      fun lhs c rhs hc ↦ hpass _ hc rfl⟩
  · rintro ⟨hbinds, hpos, hneg, hcmp⟩
    refine ⟨⟨hbinds, hpos⟩, fun l hl hl' ↦ ?_⟩
    cases l with
    | pos p => cases hl'
    | neg p => exact passes_neg_iff.2 (hneg p hl)
    | cmp lhs c rhs => exact hcmp lhs c rhs hl

/-! ## Nothing is left without a term -/

/-- What stands before a literal that is not positive: all positive literals, and perhaps others
that are not. -/
theorem eq_positives_append {l : Literal} (hl : l.isPositive = false) {before behind : List Literal}
    (h : r.joinOrder = before ++ l :: behind) :
    ∃ ls, (∀ l ∈ ls, l.isPositive = false) ∧ before = r.positives.map .pos ++ ls := by
  have hfilters : ∀ l ∈ r.body.filter (! ·.isPositive), l.isPositive = false := by simp
  rw [joinOrder, ← positives_map] at h
  rcases List.append_eq_append_iff.1 h with ⟨ls, hbefore, hrest⟩ | ⟨ls, hpos, hrest⟩
  · refine ⟨ls, fun m hm ↦ hfilters m ?_, hbefore⟩
    rw [hrest]
    exact List.mem_append_left _ hm
  · cases ls with
    | nil => exact ⟨[], by simp, by rw [hpos, List.append_nil, List.append_nil]⟩
    | cons m ls =>
      obtain ⟨rfl, -⟩ := List.cons.inj hrest
      have hmem : l ∈ r.body.filter Literal.isPositive := by
        rw [← positives_map, hpos]
        exact List.mem_append_right _ List.mem_cons_self
      rw [(List.mem_filter.1 hmem).2] at hl
      cases hl

/-- Whatever gets to a literal that is not positive has terms for the variables that the rule
binds. -/
theorem mem_of_mem_solutions (hdb : db.WellFormed) {l : Literal} (hl : l.isPositive = false)
    {before behind : List Literal} (h : r.joinOrder = before ++ l :: behind)
    (hb : b ∈ RightOfWay.solutions db before ∅) {x : String} (hx : r.Binds x) : x ∈ b := by
  obtain ⟨ls, hls, rfl⟩ := eq_positives_append hl h
  rw [solutions_append, List.mem_flatMap] at hb
  obtain ⟨c, hc, hb⟩ := hb
  rw [((mem_solutions_filters hdb hls).1 hb).1]
  exact (mem_iff_binds hdb hc).2 hx

/-- Solving the rule never lacks a term that it needs. -/
structure Total (r : Rule) (db : Database) : Prop where
  /-- Every match has terms for the variables of the head, so that this can be grounded. -/
  head : ∀ b ∈ r.solutions db, ∀ head, r.head = some head →
    (∀ x, .var x ∈ head.args → x ∈ b) ∧ ∃ t, ground head b = some t
  /-- Whatever gets to a comparison has terms for both sides. -/
  comparison : ∀ before lhs c rhs behind, r.joinOrder = before ++ .cmp lhs c rhs :: behind →
    ∀ b ∈ RightOfWay.solutions db before ∅, ∃ u v, b.term? lhs = some u ∧ b.term? rhs = some v
  /-- What a negative literal finds open is anonymous. -/
  negation : ∀ before p behind, r.joinOrder = before ++ .neg p :: behind →
    ∀ b ∈ RightOfWay.solutions db before ∅, ∀ x, .var x ∈ p.args → x ∉ b → isAnonymous x = true

theorem total (hsafe : r.Safe) (hdb : db.WellFormed) : r.Total db where
  head b hb head hhead := by
    obtain ⟨σ, hσ⟩ := b.exists_agrees
    exact ⟨fun x ↦ mem_of_mem_head hsafe hdb hb hhead, _, ground_eq_some hsafe hdb hb hhead hσ⟩
  comparison before lhs c rhs behind h b hb := by
    have hmem : .cmp lhs c rhs ∈ r.body :=
      mem_joinOrder.1 (h ▸ List.mem_append_right before List.mem_cons_self)
    have hvars : ∀ x, lhs = .var x ∨ rhs = .var x → x ∈ b := fun x hx ↦
      mem_of_mem_solutions hdb rfl h hb (hsafe.comparison lhs c rhs hmem x hx)
    obtain ⟨σ, hσ⟩ := b.exists_agrees
    exact ⟨_, _, Binding.term?_eq_some hσ fun x hx ↦ hvars x (.inl hx),
      Binding.term?_eq_some hσ fun x hx ↦ hvars x (.inr hx)⟩
  negation before p behind h b hb x hx hfree := by
    have hmem : .neg p ∈ r.body :=
      mem_joinOrder.1 (h ▸ List.mem_append_right before List.mem_cons_self)
    by_contra hnamed
    have hbinds := hsafe.negation p hmem x hx (Bool.eq_false_iff.2 hnamed)
    exact hfree (mem_of_mem_solutions hdb rfl h hb hbinds)

/-- What a safe rule derives has as many terms as its relation asks for. -/
theorem length_of_mem_consequences (hsafe : r.Safe) (hdb : db.WellFormed) {d : Derived}
    (hd : d ∈ r.consequences db) : d.2.length = d.1.arity := by
  obtain ⟨-, head, σ, -, -, rfl⟩ := (mem_consequences hsafe hdb).1 hd
  exact List.length_map _

end Rule

theorem Database.wellFormed_insert {db : Database} (hdb : db.WellFormed) {r : Relation} {t : Tuple}
    (ht : t.length = r.arity) : (db.insert r t).WellFormed := by
  intro s u hu
  rw [contains_insert, Bool.or_eq_true, decide_eq_true_eq] at hu
  rcases hu with ⟨rfl, rfl⟩ | hu
  · exact ht
  · exact hdb s u hu

/-- **Solving a body is an exact join.**  For a rule without an unsafe variable, the bindings that
are found are the matches of its body, each listed once.  Every one of them grounds the head, and no
comparison is ever met by a binding without terms for it.  This is so in all databases that keep to
the arities of their relations: the empty one does, and whatever the rule derives keeps to them. -/
theorem solutions_exact {r : Rule} {db : Database} (hsafe : r.unsafeVar? = none)
    (hdb : db.WellFormed) :
    (∀ b, b ∈ r.solutions db ↔ r.Fits db b) ∧ (r.solutions db).Nodup ∧ r.Total db ∧
      Database.empty.WellFormed ∧ ∀ d ∈ r.consequences db, (db.insert d.1 d.2).WellFormed := by
  have hsafe := Rule.safe_of_unsafeVar?_eq_none hsafe
  refine ⟨fun b ↦ Rule.mem_solutions_iff_fits hdb, nodup_solutions hdb, Rule.total hsafe hdb,
    Database.wellFormed_empty, fun d hd ↦ ?_⟩
  exact Database.wellFormed_insert hdb (Rule.length_of_mem_consequences hsafe hdb hd)

/-- The nodes from which an edge leads upwards, if no edge leads from a node to itself. -/
def climbs : Rule :=
  ⟨some ⟨"climbs", [.var "X"]⟩,
    [.cmp (.var "X") .lt (.var "Y"), .neg ⟨"edge", [.var "_S", .var "_S"]⟩,
      .pos ⟨"edge", [.var "X", .var "Y"]⟩], 1⟩

/-- Two nodes with an edge each way. -/
def backAndForth : Database :=
  (Database.empty.insert ⟨"edge", 2⟩ [.int 1, .int 2]).insert ⟨"edge", 2⟩ [.int 2, .int 1]

theorem solutions_exact_climbs :
    climbs.unsafeVar? = none ∧ backAndForth.WellFormed ∧
      ∃ b, climbs.Fits backAndForth b ∧ b["X"]? = some (.int 1) ∧ b["Y"]? = some (.int 2) := by
  have hsafe : climbs.unsafeVar? = none := by decide +kernel
  have hdb : backAndForth.WellFormed :=
    Database.wellFormed_insert (Database.wellFormed_insert Database.wellFormed_empty rfl) rfl
  have hfits := (solutions_exact hsafe hdb).1
  have hone : (climbs.solutions backAndForth).any
      (fun b ↦ b["X"]? == some (.int 1) && b["Y"]? == some (.int 2)) = true := by decide +kernel
  obtain ⟨b, hb, hterms⟩ := List.any_eq_true.1 hone
  rw [Bool.and_eq_true, beq_iff_eq, beq_iff_eq] at hterms
  exact ⟨hsafe, hdb, b, (hfits b).1 hb, hterms⟩

end RightOfWay
