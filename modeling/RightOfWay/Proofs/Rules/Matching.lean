import RightOfWay.Proofs.Rules.AnswerSet
import RightOfWay.Rules.Evaluation

/-!
# Matching is exact

`solutions` finds bindings by trying the tuples of a database, literal by literal.  Here it is
compared with truth in the set of atoms that the database holds: for a safe rule, a valuation makes
the body true exactly if it agrees with one of the bindings found
(`Rule.exists_solution_iff`).

* `matchArgs` is the most general way to make arguments equal to a tuple (`agrees_of_matchArgs`), so
  that it loses no valuation, and it binds the variables of the pattern and no others.
* Positive literals come first, and after them the variables that the rule binds have their terms
  (`Rule.mem_binding_iff`).  What is still open in a negative literal is then anonymous, because the
  rule is safe, and `matchArgs` leaves it free just as `Literal.Holds` does.

From this come the meaning of one step of evaluation (`mem_consequences_iff`) and of a violated
constraint (`Rule.violated_iff`).
-/

set_option autoImplicit false

namespace RightOfWay

/-! ## The atoms of a database -/

namespace Database

/-- The atoms that the database holds. -/
def atomSet (db : Database) : Set Atom := {a | db.contains a.relation a.args = true}

/-- The tuples of every relation have its arity. -/
def WellFormed (db : Database) : Prop :=
  ∀ r t, db.contains r t = true → t.length = r.arity

theorem atom_mem_atomSet_iff {db : Database} {p : Pattern} {σ : Valuation} :
    p.atom σ ∈ db.atomSet ↔ db.contains p.relation (p.args.map (Arg.value σ)) = true := by
  show db.contains (p.atom σ).relation _ = true ↔ _
  rw [Pattern.relation_atom]
  rfl

theorem args_mem_tuples_iff {db : Database} {p : Pattern} {σ : Valuation} :
    p.args.map (Arg.value σ) ∈ db.tuples p.relation ↔ p.atom σ ∈ db.atomSet :=
  mem_tuples.trans atom_mem_atomSet_iff.symm

theorem length_of_mem_tuples {db : Database} (hdb : db.WellFormed) {p : Pattern} {t : Tuple}
    (ht : t ∈ db.tuples p.relation) : p.args.length = t.length :=
  (hdb _ _ (mem_tuples.1 ht)).symm

end Database

/-! ## Bindings and valuations -/

namespace Binding

/-- The valuation gives the bound variables the terms that they are bound to. -/
def Agrees (b : Binding) (σ : Valuation) : Prop := ∀ x t, b[x]? = some t → σ x = t

theorem agrees_empty (σ : Valuation) : Agrees ∅ σ := by
  intro x t h
  simp at h

theorem exists_agrees (b : Binding) : ∃ σ, b.Agrees σ :=
  ⟨fun x ↦ b[x]?.getD default, fun x t h ↦ by simp only [h, Option.getD_some]⟩

theorem agrees_insert_iff {b : Binding} {σ : Valuation} {x : String} {t : Term}
    (hx : b[x]? = none) : Agrees (b.insert x t) σ ↔ b.Agrees σ ∧ σ x = t := by
  constructor
  · intro h
    refine ⟨fun y u hy ↦ h y u ?_, h x t (by simp)⟩
    have hne : x ≠ y := by
      rintro rfl
      rw [hx] at hy
      cases hy
    rw [Std.ExtTreeMap.getElem?_insert, if_neg (by simpa using hne)]
    exact hy
  · rintro ⟨hb, rfl⟩ y u hy
    rw [Std.ExtTreeMap.getElem?_insert] at hy
    split at hy
    · rename_i hxy
      rw [← Std.LawfulEqCmp.eq_of_compare hxy]
      exact Option.some.inj hy
    · exact hb y u hy

/-- Valuations that agree with a binding are alike on what it binds. -/
theorem Agrees.eq_of_mem {b : Binding} {σ τ : Valuation} {x : String} (hσ : b.Agrees σ)
    (hτ : b.Agrees τ) (hx : x ∈ b) : σ x = τ x := by
  obtain ⟨t, ht⟩ := Option.isSome_iff_exists.1 (Std.ExtTreeMap.mem_iff_isSome_getElem?.1 hx)
  rw [hσ x t ht, hτ x t ht]

theorem term?_eq_some {b : Binding} {σ : Valuation} (hb : b.Agrees σ) {a : Arg}
    (ha : ∀ x, a = .var x → x ∈ b) : b.term? a = some (a.value σ) := by
  cases a with
  | const t => rfl
  | var x =>
    obtain ⟨t, ht⟩ := Option.isSome_iff_exists.1
      (Std.ExtTreeMap.mem_iff_isSome_getElem?.1 (ha x rfl))
    rw [term?, ht, Arg.value, hb x t ht]

end Binding

/-! ## Matching a tuple -/

/-- Arguments and a tuple of the same length that cannot be matched pairwise are both at their
end. -/
theorem nil_of_unmatched {as : List Arg} {ts : Tuple} (hlen : as.length = ts.length)
    (hconst : ∀ c as' t ts', as = .const c :: as' → ts = t :: ts' → False)
    (hvar : ∀ name as' t ts', as = .var name :: as' → ts = t :: ts' → False) :
    as = [] ∧ ts = [] := by
  cases ts with
  | nil => exact ⟨List.length_eq_zero_iff.1 hlen, rfl⟩
  | cons t ts =>
    cases as with
    | nil => cases hlen
    | cons a as =>
      cases a with
      | const c => exact (hconst c as t ts rfl rfl).elim
      | var name => exact (hvar name as t ts rfl rfl).elim

/-- The valuations that agree with the extended binding are those that agreed with the given one and
turn the arguments into the tuple. -/
theorem agrees_of_matchArgs {as : List Arg} {ts : Tuple} {b c : Binding}
    (hlen : as.length = ts.length) (h : matchArgs as ts b = some c) (σ : Valuation) :
    c.Agrees σ ↔ b.Agrees σ ∧ as.map (Arg.value σ) = ts := by
  fun_induction matchArgs as ts b with
  | case1 as ts b t ih =>
    rw [ih (by simpa using hlen) h]
    simp [Arg.value]
  | case2 => cases h
  | case3 name as ts b t hbound ih =>
    rw [ih (by simpa using hlen) h]
    constructor
    · rintro ⟨hb, rfl⟩
      exact ⟨hb, by rw [List.map_cons, Arg.value, hb name t hbound]⟩
    · rintro ⟨hb, heq⟩
      exact ⟨hb, (List.cons.inj heq).2⟩
  | case4 => cases h
  | case5 name as t ts b hbound ih =>
    rw [ih (by simpa using hlen) h, Binding.agrees_insert_iff hbound, List.map_cons, Arg.value,
      List.cons.injEq, and_assoc]
  | case6 as ts b hconst hvar =>
    cases h
    obtain ⟨rfl, rfl⟩ := nil_of_unmatched hlen hconst hvar
    simp

/-- If the arguments do not match, then no valuation turns them into the tuple. -/
theorem ne_of_matchArgs_eq_none {as : List Arg} {ts : Tuple} {b : Binding}
    (h : matchArgs as ts b = none) {σ : Valuation} (hb : b.Agrees σ) :
    as.map (Arg.value σ) ≠ ts := by
  fun_induction matchArgs as ts b with
  | case1 as ts b t ih => exact fun heq ↦ ih h hb (List.cons.inj heq).2
  | case2 c as t ts b hne => exact fun heq ↦ hne (List.cons.inj heq).1
  | case3 name as ts b t hbound ih => exact fun heq ↦ ih h hb (List.cons.inj heq).2
  | case4 name as t ts b bound hbound hne =>
    exact fun heq ↦ hne ((hb name bound hbound).symm.trans (List.cons.inj heq).1)
  | case5 name as t ts b hbound ih =>
    intro heq
    obtain ⟨hhead, htail⟩ := List.cons.inj heq
    exact ih h ((Binding.agrees_insert_iff hbound).2 ⟨hb, hhead⟩) htail
  | case6 => cases h

/-- Matching binds the variables among the arguments. -/
theorem mem_of_matchArgs {as : List Arg} {ts : Tuple} {b c : Binding}
    (hlen : as.length = ts.length) (h : matchArgs as ts b = some c) (x : String) :
    x ∈ c ↔ x ∈ b ∨ .var x ∈ as := by
  fun_induction matchArgs as ts b with
  | case1 as ts b t ih => rw [ih (by simpa using hlen) h]; simp
  | case2 => cases h
  | case3 name as ts b t hbound ih =>
    have hname : name ∈ b := Std.ExtTreeMap.mem_iff_isSome_getElem?.2 (by simp [hbound])
    rw [ih (by simpa using hlen) h, List.mem_cons, Arg.var.injEq]
    constructor
    · rintro (hx | hx)
      · exact .inl hx
      · exact .inr (.inr hx)
    · rintro (hx | rfl | hx)
      · exact .inl hx
      · exact .inl hname
      · exact .inr hx
  | case4 => cases h
  | case5 name as t ts b hbound ih =>
    rw [ih (by simpa using hlen) h, Std.ExtTreeMap.mem_insert, List.mem_cons, Arg.var.injEq,
      Std.LawfulEqCmp.compare_eq_iff_eq, or_comm (a := name = x), or_assoc, eq_comm (a := name)]
  | case6 as ts b hconst hvar =>
    cases h
    obtain ⟨rfl, rfl⟩ := nil_of_unmatched hlen hconst hvar
    simp

/-! ## Positive literals -/

theorem solutions_append (db : Database) (ls ms : List Literal) (b : Binding) :
    solutions db (ls ++ ms) b = (solutions db ls b).flatMap (solutions db ms) := by
  induction ls generalizing b with
  | nil => simp [solutions]
  | cons l ls ih =>
    cases l with
    | pos p =>
      have hls : solutions db (ls ++ ms) = fun c ↦ (solutions db ls c).flatMap (solutions db ms) :=
        funext ih
      rw [List.cons_append, solutions, solutions, List.flatMap_assoc, hls]
    | neg p =>
      simp only [List.cons_append, solutions, ih]
      split <;> simp
    | cmp lhs c rhs =>
      simp only [List.cons_append, solutions]
      split
      · split
        · exact ih b
        · rfl
      · rfl

theorem mem_solutions_pos {db : Database} {p : Pattern} {ls : List Literal} {b c : Binding} :
    c ∈ solutions db (.pos p :: ls) b ↔
      ∃ t ∈ db.tuples p.relation, ∃ d, matchArgs p.args t b = some d ∧ c ∈ solutions db ls d := by
  simp only [solutions, List.mem_flatMap, List.mem_filterMap]
  constructor
  · rintro ⟨d, ⟨t, ht, hd⟩, hc⟩
    exact ⟨t, ht, d, hd, hc⟩
  · rintro ⟨t, ht, d, hd, hc⟩
    exact ⟨d, ⟨t, ht, hd⟩, hc⟩

/-- A valuation makes positive literals true exactly if it agrees with a binding found for them. -/
theorem exists_solution_positives {db : Database} (hdb : db.WellFormed) {ps : List Pattern}
    {b : Binding} {σ : Valuation} :
    (∃ c ∈ solutions db (ps.map .pos) b, c.Agrees σ) ↔
      b.Agrees σ ∧ ∀ p ∈ ps, p.atom σ ∈ db.atomSet := by
  induction ps generalizing b with
  | nil => simp [solutions]
  | cons p ps ih =>
    rw [List.map_cons, List.forall_mem_cons]
    constructor
    · rintro ⟨c, hc, hσ⟩
      obtain ⟨t, ht, d, hd, hc⟩ := mem_solutions_pos.1 hc
      obtain ⟨hdσ, hps⟩ := ih.1 ⟨c, hc, hσ⟩
      obtain ⟨hbσ, rfl⟩ := (agrees_of_matchArgs (Database.length_of_mem_tuples hdb ht) hd σ).1 hdσ
      exact ⟨hbσ, Database.args_mem_tuples_iff.1 ht, hps⟩
    · rintro ⟨hbσ, hp, hps⟩
      have ht := Database.args_mem_tuples_iff.2 hp
      have hlen : p.args.length = (p.args.map (Arg.value σ)).length := (List.length_map _).symm
      cases hd : matchArgs p.args (p.args.map (Arg.value σ)) b with
      | none => exact absurd rfl (ne_of_matchArgs_eq_none hd hbσ)
      | some d =>
        have hdσ := (agrees_of_matchArgs hlen hd σ).2 ⟨hbσ, rfl⟩
        obtain ⟨c, hc, hcσ⟩ := ih.2 ⟨hdσ, hps⟩
        exact ⟨c, mem_solutions_pos.2 ⟨_, ht, d, hd, hc⟩, hcσ⟩

/-- The bindings found for positive literals bind the variables of these. -/
theorem mem_of_solution_positives {db : Database} (hdb : db.WellFormed) {ps : List Pattern}
    {b c : Binding} (hc : c ∈ solutions db (ps.map .pos) b) (x : String) :
    x ∈ c ↔ x ∈ b ∨ ∃ p ∈ ps, .var x ∈ p.args := by
  induction ps generalizing b with
  | nil =>
    rw [List.map_nil, solutions, List.mem_singleton] at hc
    simp [hc]
  | cons p ps ih =>
    obtain ⟨t, ht, d, hd, hc⟩ := mem_solutions_pos.1 hc
    rw [ih hc, mem_of_matchArgs (Database.length_of_mem_tuples hdb ht) hd, or_assoc]
    simp

/-! ## Filters -/

/-- A literal that is not positive keeps the binding. -/
def Literal.Passes (db : Database) (b : Binding) : Literal → Prop
  | .pos _ => False
  | .neg p => ∀ τ, b.Agrees τ → p.atom τ ∉ db.atomSet
  | .cmp lhs c rhs => ∃ l r, b.term? lhs = some l ∧ b.term? rhs = some r ∧ c.holds l r = true

theorem blocked_iff {db : Database} (hdb : db.WellFormed) {p : Pattern} {b : Binding} :
    (db.tuples p.relation).any (fun t ↦ (matchArgs p.args t b).isSome) = true ↔
      ∃ τ, b.Agrees τ ∧ p.atom τ ∈ db.atomSet := by
  rw [List.any_eq_true]
  constructor
  · rintro ⟨t, ht, hsome⟩
    obtain ⟨d, hd⟩ := Option.isSome_iff_exists.1 hsome
    obtain ⟨τ, hτ⟩ := d.exists_agrees
    obtain ⟨hb, rfl⟩ := (agrees_of_matchArgs (Database.length_of_mem_tuples hdb ht) hd τ).1 hτ
    exact ⟨τ, hb, Database.args_mem_tuples_iff.1 ht⟩
  · rintro ⟨τ, hb, hmem⟩
    refine ⟨_, Database.args_mem_tuples_iff.2 hmem, ?_⟩
    rw [Option.isSome_iff_ne_none]
    exact fun hnone ↦ ne_of_matchArgs_eq_none hnone hb rfl

/-- A literal that is not positive lets a binding pass to the literals behind it, or drops it. -/
theorem mem_solutions_filter {db : Database} (hdb : db.WellFormed) {l : Literal}
    (hl : l.isPositive = false) {ls : List Literal} {b c : Binding} :
    c ∈ solutions db (l :: ls) b ↔ l.Passes db b ∧ c ∈ solutions db ls b := by
  cases l with
  | pos p => cases hl
  | neg p =>
    have hpass : (Literal.neg p).Passes db b ↔ ¬ ∃ τ, b.Agrees τ ∧ p.atom τ ∈ db.atomSet := by
      simp [Literal.Passes]
    rw [solutions, hpass, ← blocked_iff hdb]
    split
    · rename_i hblocked
      exact iff_of_false List.not_mem_nil fun h ↦ h.1 hblocked
    · rename_i hfree
      exact (and_iff_right hfree).symm
  | cmp lhs o rhs =>
    rw [solutions]
    split
    · rename_i l r hl hr
      have hpass : (Literal.cmp lhs o rhs).Passes db b ↔ o.holds l r = true := by
        simp [Literal.Passes, hl, hr]
      rw [hpass]
      split
      · rename_i ho
        exact (and_iff_right ho).symm
      · rename_i ho
        exact iff_of_false List.not_mem_nil fun h ↦ ho h.1
    · rename_i hnone
      refine iff_of_false List.not_mem_nil ?_
      rintro ⟨⟨l, r, hl, hr, -⟩, -⟩
      exact hnone l r hl hr

theorem mem_solutions_filters {db : Database} (hdb : db.WellFormed) {ls : List Literal}
    (hls : ∀ l ∈ ls, l.isPositive = false) {b c : Binding} :
    c ∈ solutions db ls b ↔ c = b ∧ ∀ l ∈ ls, l.Passes db b := by
  induction ls with
  | nil => simp [solutions]
  | cons l ls ih =>
    obtain ⟨hl, hrest⟩ := List.forall_mem_cons.1 hls
    rw [mem_solutions_filter hdb hl, ih hrest, List.forall_mem_cons]
    exact and_left_comm

/-! ## Safe rules -/

theorem Pattern.mem_namedVars {p : Pattern} {x : String} :
    x ∈ p.namedVars ↔ .var x ∈ p.args ∧ isAnonymous x = false := by
  rw [namedVars, List.mem_filterMap]
  constructor
  · rintro ⟨a, ha, hx⟩
    cases a with
    | const t => cases hx
    | var y =>
      dsimp only at hx
      split at hx
      · cases hx
      · rename_i hy
        cases hx
        exact ⟨ha, by simpa using hy⟩
  · rintro ⟨hx, hnamed⟩
    exact ⟨.var x, hx, by simp [hnamed]⟩

theorem Pattern.named_of_anonymousVar?_eq_none {p : Pattern} (h : p.anonymousVar? = none)
    {x : String} (hx : .var x ∈ p.args) : isAnonymous x = false := by
  have := List.findSome?_eq_none_iff.1 h _ hx
  simpa using this

namespace Rule

theorem mem_boundVars {r : Rule} {x : String} :
    x ∈ r.boundVars ↔ r.Binds x ∧ isAnonymous x = false := by
  rw [boundVars, Std.ExtTreeSet.mem_ofList, List.contains_iff_mem, List.mem_flatMap]
  constructor
  · rintro ⟨l, hl, hx⟩
    cases l with
    | pos p =>
      obtain ⟨hmem, hnamed⟩ := Pattern.mem_namedVars.1 hx
      exact ⟨⟨p, hl, hmem⟩, hnamed⟩
    | neg p => cases hx
    | cmp lhs c rhs => cases hx
  · rintro ⟨⟨p, hp, hx⟩, hnamed⟩
    exact ⟨.pos p, hp, Pattern.mem_namedVars.2 ⟨hx, hnamed⟩⟩

/-- All variables that must have a term are bound by positive literals. -/
structure Safe (r : Rule) : Prop where
  /-- Those of the head. -/
  head : ∀ head, r.head = some head → ∀ x, .var x ∈ head.args → r.Binds x
  /-- The named ones of negative literals. -/
  negation : ∀ p, .neg p ∈ r.body → ∀ x, .var x ∈ p.args → isAnonymous x = false → r.Binds x
  /-- Those of comparisons. -/
  comparison : ∀ lhs c rhs, .cmp lhs c rhs ∈ r.body →
    ∀ x, lhs = .var x ∨ rhs = .var x → r.Binds x

theorem safe_of_unsafeVar?_eq_none {r : Rule} (h : r.unsafeVar? = none) : r.Safe := by
  rw [unsafeVar?] at h
  split at h
  · cases h
  rename_i hanon
  have hbound : ∀ x ∈ r.neededVars, r.Binds x := by
    intro x hx
    have hx := List.find?_eq_none.1 h x (Std.ExtTreeSet.mem_toList.2 hx)
    exact (mem_boundVars.1 (by simpa using hx)).1
  simp only [neededVars, Std.ExtTreeSet.mem_ofList, List.contains_iff_mem, List.mem_append,
    List.mem_flatMap] at hbound
  refine ⟨fun head hhead x hx ↦ ?_, fun p hp x hx hnamed ↦ ?_, fun lhs c rhs hl x hx ↦ ?_⟩
  · rw [hhead, Option.bind_some] at hanon
    have hnamed := Pattern.named_of_anonymousVar?_eq_none hanon hx
    exact hbound x (.inl (by simpa [hhead] using Pattern.mem_namedVars.2 ⟨hx, hnamed⟩))
  · exact hbound x (.inr ⟨_, hp, Pattern.mem_namedVars.2 ⟨hx, hnamed⟩⟩)
  · refine hbound x (.inr ⟨_, hl, List.mem_append.2 ?_⟩)
    rcases hx with rfl | rfl
    · exact .inl List.mem_cons_self
    · exact .inr List.mem_cons_self

/-! ## Bodies of safe rules -/

variable {r : Rule} {db : Database} {b : Binding} {σ : Valuation}

theorem positives_map (r : Rule) : r.positives.map .pos = r.body.filter Literal.isPositive := by
  rw [positives]
  induction r.body with
  | nil => rfl
  | cons l ls ih =>
    cases l with
    | pos p => exact congrArg (Literal.pos p :: ·) ih
    | neg p => exact ih
    | cmp lhs c rhs => exact ih

theorem mem_solutions (hdb : db.WellFormed) :
    b ∈ r.solutions db ↔ b ∈ RightOfWay.solutions db (r.positives.map .pos) ∅ ∧
      ∀ l ∈ r.body, l.isPositive = false → l.Passes db b := by
  have hfilters : ∀ l ∈ r.body.filter (! ·.isPositive), l.isPositive = false := by simp
  rw [solutions, joinOrder, ← positives_map, solutions_append, List.mem_flatMap]
  simp only [mem_solutions_filters hdb hfilters]
  constructor
  · rintro ⟨c, hc, rfl, hpass⟩
    exact ⟨hc, fun l hl hl' ↦ hpass l (List.mem_filter.2 ⟨hl, by simp [hl']⟩)⟩
  · rintro ⟨hb, hpass⟩
    exact ⟨b, hb, rfl, fun l hl ↦ hpass l (List.mem_filter.1 hl).1 (hfilters l hl)⟩

/-- What is bound once the positive literals are solved. -/
theorem mem_iff_binds (hdb : db.WellFormed)
    (hb : b ∈ RightOfWay.solutions db (r.positives.map .pos) ∅) {x : String} :
    x ∈ b ↔ r.Binds x := by
  rw [mem_of_solution_positives hdb hb x]
  simp only [Binds, mem_positives, Std.ExtTreeMap.not_mem_empty, false_or]

/-- The bindings found for a body bind the variables that the rule binds. -/
theorem mem_binding_iff (hdb : db.WellFormed) (hb : b ∈ r.solutions db) {x : String} :
    x ∈ b ↔ r.Binds x :=
  mem_iff_binds hdb ((mem_solutions hdb).1 hb).1

/-- Variants agree with the same bindings of variables that the rule binds. -/
theorem Variant.agrees {τ : Valuation} (h : r.Variant σ τ) (hbinds : ∀ x ∈ b, r.Binds x)
    (hb : b.Agrees σ) : b.Agrees τ := by
  intro x t hx
  have hmem : x ∈ b := Std.ExtTreeMap.mem_iff_isSome_getElem?.2 (by simp [hx])
  rcases h x with heq | ⟨-, hfree⟩
  · rw [heq]
    exact hb x t hx
  · exact absurd (hbinds x hmem) hfree

/-- A filter passes a binding of the bound variables exactly if it is true for the valuations that
agree with the binding. -/
theorem passes_iff_holds (hsafe : r.Safe) (hbinds : ∀ x, x ∈ b ↔ r.Binds x) (hb : b.Agrees σ)
    {l : Literal} (hl : l ∈ r.body) (hl' : l.isPositive = false) :
    l.Passes db b ↔ l.Holds r db.atomSet σ := by
  cases l with
  | pos p => cases hl'
  | neg p =>
    constructor
    · exact fun hpass τ hτ ↦ hpass τ (hτ.agrees (fun x hx ↦ (hbinds x).1 hx) hb)
    · intro hholds τ hτ
      -- outside the open variables `τ` may be anything, so it is brought back to `σ` there
      obtain ⟨υ, hυ, hatom⟩ : ∃ υ, r.Variant σ υ ∧ p.atom υ = p.atom τ := by
        refine Variant.exists_atom_eq fun x hx ↦ ?_
        by_cases hx' : r.Binds x
        · exact .inl (hτ.eq_of_mem hb ((hbinds x).2 hx'))
        · refine .inr ⟨?_, hx'⟩
          by_contra hnamed
          exact hx' (hsafe.negation p hl x hx (Bool.eq_false_iff.2 hnamed))
      rw [← hatom]
      exact hholds υ hυ
  | cmp lhs c rhs =>
    have hlhs : b.term? lhs = some (lhs.value σ) := Binding.term?_eq_some hb fun x hx ↦
      (hbinds x).2 (hsafe.comparison lhs c rhs hl x (.inl hx))
    have hrhs : b.term? rhs = some (rhs.value σ) := Binding.term?_eq_some hb fun x hx ↦
      (hbinds x).2 (hsafe.comparison lhs c rhs hl x (.inr hx))
    simp [Literal.Passes, Literal.Holds, hlhs, hrhs]

/-- **Solving a body is exact.**  A valuation makes the body of a safe rule true in the atoms of the
database exactly if it agrees with one of the bindings found. -/
theorem exists_solution_iff (hsafe : r.Safe) (hdb : db.WellFormed) :
    (∃ b ∈ r.solutions db, b.Agrees σ) ↔ r.BodyHolds db.atomSet σ := by
  rw [bodyHolds_iff]
  constructor
  · rintro ⟨b, hb, hσ⟩
    obtain ⟨hpos, hpass⟩ := (mem_solutions hdb).1 hb
    refine ⟨fun p hp ↦ ?_, fun l hl hl' ↦ ?_⟩
    · exact ((exists_solution_positives hdb).1 ⟨b, hpos, hσ⟩).2 p (mem_positives.2 hp)
    · have hbinds := fun x ↦ mem_binding_iff hdb hb (x := x)
      exact (passes_iff_holds hsafe hbinds hσ hl hl').1 (hpass l hl hl')
  · rintro ⟨hpos, hrest⟩
    obtain ⟨b, hb, hσ⟩ := (exists_solution_positives (b := ∅) hdb).2
      ⟨Binding.agrees_empty σ, fun p hp ↦ hpos p (mem_positives.1 hp)⟩
    have hbinds : ∀ x, x ∈ b ↔ r.Binds x := fun x ↦ mem_iff_binds hdb hb
    refine ⟨b, (mem_solutions hdb).2 ⟨hb, fun l hl hl' ↦ ?_⟩, hσ⟩
    exact (passes_iff_holds hsafe hbinds hσ hl hl').2 (hrest l hl hl')

end Rule

/-! ## One step of evaluation -/

theorem mapM_term?_eq_some {as : List Arg} {b : Binding} {σ : Valuation} (hb : b.Agrees σ)
    (has : ∀ x, .var x ∈ as → x ∈ b) : as.mapM b.term? = some (as.map (Arg.value σ)) := by
  induction as with
  | nil => rfl
  | cons a as ih =>
    have ha : b.term? a = some (a.value σ) :=
      Binding.term?_eq_some hb fun x hx ↦ has x (hx ▸ List.mem_cons_self)
    rw [List.mapM_cons, ha, ih fun x hx ↦ has x (List.mem_cons_of_mem _ hx)]
    rfl

namespace Rule

variable {r : Rule} {db : Database}

/-- The bindings found for a body have terms for the variables of the head. -/
theorem mem_of_mem_head (hsafe : r.Safe) (hdb : db.WellFormed) {b : Binding}
    (hb : b ∈ r.solutions db) {head : Pattern} (hhead : r.head = some head) {x : String}
    (hx : .var x ∈ head.args) : x ∈ b :=
  (mem_binding_iff hdb hb).2 (hsafe.head head hhead x hx)

theorem ground_eq_some (hsafe : r.Safe) (hdb : db.WellFormed) {b : Binding}
    (hb : b ∈ r.solutions db) {head : Pattern} (hhead : r.head = some head) {σ : Valuation}
    (hσ : b.Agrees σ) : ground head b = some (head.atom σ).args :=
  mapM_term?_eq_some hσ fun _ hx ↦ mem_of_mem_head hsafe hdb hb hhead hx

/-- What a safe rule derives in one step: the heads of its instances with true bodies that the
database does not contain. -/
theorem mem_consequences (hsafe : r.Safe) (hdb : db.WellFormed) {d : Derived} :
    d ∈ r.consequences db ↔ db.contains d.1 d.2 = false ∧ ∃ head σ, r.head = some head ∧
      r.BodyHolds db.atomSet σ ∧ d = (head.relation, (head.atom σ).args) := by
  rw [consequences]
  cases hhead : r.head with
  | none => simp
  | some head =>
    simp only [List.mem_filterMap, Option.some.injEq]
    constructor
    · rintro ⟨t, ⟨b, hb, ht⟩, hd⟩
      obtain ⟨σ, hσ⟩ := b.exists_agrees
      rw [ground_eq_some hsafe hdb hb hhead hσ] at ht
      cases ht
      split at hd
      · cases hd
      · rename_i hnew
        cases hd
        have hbody := (exists_solution_iff hsafe hdb).1 ⟨b, hb, hσ⟩
        exact ⟨by simpa using hnew, head, σ, rfl, hbody, rfl⟩
    · rintro ⟨hnew, _, σ, rfl, hbody, rfl⟩
      obtain ⟨b, hb, hσ⟩ := (exists_solution_iff hsafe hdb).2 hbody
      have hground := ground_eq_some hsafe hdb hb hhead hσ
      exact ⟨_, ⟨b, hb, hground⟩, if_neg (Bool.eq_false_iff.1 hnew)⟩

/-- A safe constraint is violated if an instance of its body is true. -/
theorem violated_iff (hsafe : r.Safe) (hdb : db.WellFormed) :
    r.violated db = true ↔ r.head = none ∧ ∃ σ, r.BodyHolds db.atomSet σ := by
  have hsolved : (r.solutions db).isEmpty = false ↔ ∃ σ, r.BodyHolds db.atomSet σ := by
    rw [List.isEmpty_eq_false_iff_exists_mem]
    constructor
    · rintro ⟨b, hb⟩
      obtain ⟨σ, hσ⟩ := b.exists_agrees
      exact ⟨σ, (exists_solution_iff hsafe hdb).1 ⟨b, hb, hσ⟩⟩
    · rintro ⟨σ, hbody⟩
      obtain ⟨b, hb, -⟩ := (exists_solution_iff hsafe hdb).2 hbody
      exact ⟨b, hb⟩
  rw [violated, Bool.and_eq_true, Bool.not_eq_true', hsolved, Option.isNone_iff_eq_none]

end Rule

theorem mem_consequences_iff {rules : List Rule} {db : Database} (hsafe : ∀ r ∈ rules, r.Safe)
    (hdb : db.WellFormed) {d : Derived} :
    d ∈ consequences db rules ↔ db.contains d.1 d.2 = false ∧ ∃ r ∈ rules, ∃ head σ,
      r.head = some head ∧ r.BodyHolds db.atomSet σ ∧ d = (head.relation, (head.atom σ).args) := by
  rw [consequences, List.mem_flatMap]
  constructor
  · rintro ⟨r, hr, hd⟩
    obtain ⟨hnew, head, σ, h⟩ := (Rule.mem_consequences (hsafe r hr) hdb).1 hd
    exact ⟨hnew, r, hr, head, σ, h⟩
  · rintro ⟨hnew, r, hr, head, σ, h⟩
    exact ⟨r, hr, (Rule.mem_consequences (hsafe r hr) hdb).2 ⟨hnew, head, σ, h⟩⟩

end RightOfWay
