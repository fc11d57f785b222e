import RightOfWay.Proofs.OrderedMap
import RightOfWay.Proofs.Rules.Meaning

/-!
# The order of rules

Rules may be put into another order, and so may the literals in their bodies.  An evaluation goes
through both in order: it raises levels rule by rule, joins literals from left to right and gives up
as soon as there is one tuple too many.  None of this shows in how it ends.

The reason is that everything which decides the end is said in terms of what rules there are and
what literals are in them (`SameRules`): whether there is a leveling, which sets are answer sets,
and which of these violate a constraint.  The budget is compared to the size of the answer set,
whatever way leads there (`IsFinal.evaluate_of_lt`), and answers are listed in the order of their
atoms (`Database.atoms_congr`).
-/

set_option autoImplicit false

namespace RightOfWay

/-! ## Rules that say the same -/

/-- The rules have the same head, and the same literals in their bodies. -/
structure Rule.Alike (r s : Rule) : Prop where
  head : r.head = s.head
  body : ∀ l, l ∈ r.body ↔ l ∈ s.body

/-- For each rule of one list there is one in the other list that says the same. -/
structure SameRules (rules rules' : List Rule) : Prop where
  left : ∀ r ∈ rules, ∃ r' ∈ rules', r.Alike r'
  right : ∀ r' ∈ rules', ∃ r ∈ rules, r'.Alike r

/-- The second list comes from the first one by putting rules into another order, by repeating
rules and by putting the literals of bodies into another order. -/
inductive Rearranged : List Rule → List Rule → Prop
  | reorder {rules rules' : List Rule} (h : rules.Perm rules') : Rearranged rules rules'
  | duplicate {rules : List Rule} {r : Rule} (h : r ∈ rules) : Rearranged rules (r :: rules)
  | reorderBody (before behind : List Rule) {r : Rule} {body : List Literal}
    (h : r.body.Perm body) :
    Rearranged (before ++ r :: behind) (before ++ { r with body } :: behind)
  | trans {rules rules' rules'' : List Rule} (h : Rearranged rules rules')
    (h' : Rearranged rules' rules'') : Rearranged rules rules''

namespace Rule.Alike

variable {r s : Rule} {M : Set Atom} {σ : Valuation} {l : Literal}

theorem refl (r : Rule) : r.Alike r := ⟨rfl, fun _ ↦ Iff.rfl⟩

theorem symm (h : r.Alike s) : s.Alike r := ⟨h.head.symm, fun l ↦ (h.body l).symm⟩

theorem trans {t : Rule} (h : r.Alike s) (h' : s.Alike t) : r.Alike t :=
  ⟨h.head.trans h'.head, fun l ↦ (h.body l).trans (h'.body l)⟩

theorem binds_iff (h : r.Alike s) (x : String) : r.Binds x ↔ s.Binds x := by
  simp only [Binds, h.body]

theorem holds_iff (h : r.Alike s) : l.Holds r M σ ↔ l.Holds s M σ := by
  cases l with
  | pos p => exact Iff.rfl
  | neg p => simp only [Literal.Holds, Variant, h.binds_iff]
  | cmp lhs c rhs => exact Iff.rfl

theorem bodyHolds_iff (h : r.Alike s) : r.BodyHolds M σ ↔ s.BodyHolds M σ := by
  simp only [BodyHolds, h.body, h.holds_iff]

theorem safe (h : r.Alike s) (hsafe : r.Safe) : s.Safe where
  head head hhead x hx := (h.binds_iff x).1 (hsafe.head head (h.head.trans hhead) x hx)
  negation p hp x hx hnamed :=
    (h.binds_iff x).1 (hsafe.negation p ((h.body _).2 hp) x hx hnamed)
  comparison lhs c rhs hc x hx :=
    (h.binds_iff x).1 (hsafe.comparison lhs c rhs ((h.body _).2 hc) x hx)

end Rule.Alike

namespace SameRules

variable {rules rules' rules'' : List Rule} {M : Set Atom}

theorem symm (h : SameRules rules rules') : SameRules rules' rules := ⟨h.right, h.left⟩

theorem trans (h : SameRules rules rules') (h' : SameRules rules' rules'') :
    SameRules rules rules'' := by
  refine ⟨fun r hr ↦ ?_, fun t ht ↦ ?_⟩
  · obtain ⟨s, hs, hrs⟩ := h.left r hr
    obtain ⟨t, ht, hst⟩ := h'.left s hs
    exact ⟨t, ht, hrs.trans hst⟩
  · obtain ⟨s, hs, hts⟩ := h'.right t ht
    obtain ⟨r, hr, hsr⟩ := h.right s hs
    exact ⟨r, hr, hts.trans hsr⟩

theorem of_mem_iff (h : ∀ r, r ∈ rules ↔ r ∈ rules') : SameRules rules rules' :=
  ⟨fun r hr ↦ ⟨r, (h r).1 hr, .refl r⟩, fun r hr ↦ ⟨r, (h r).2 hr, .refl r⟩⟩

theorem of_replace {before behind : List Rule} {r s : Rule} (h : r.Alike s) :
    SameRules (before ++ r :: behind) (before ++ s :: behind) := by
  have hone : ∀ {r s : Rule}, r.Alike s → ∀ t ∈ before ++ r :: behind,
      ∃ t' ∈ before ++ s :: behind, t.Alike t' := by
    intro r s h t ht
    rcases List.mem_append.1 ht with hbefore | ht
    · exact ⟨t, List.mem_append_left _ hbefore, .refl t⟩
    rcases List.mem_cons.1 ht with rfl | hbehind
    · exact ⟨s, List.mem_append_right _ List.mem_cons_self, h⟩
    · exact ⟨t, List.mem_append_right _ (List.mem_cons_of_mem s hbehind), .refl t⟩
  exact ⟨hone h, hone h.symm⟩

theorem safe (h : SameRules rules rules') (hsafe : ∀ r ∈ rules, r.Safe) : ∀ r ∈ rules', r.Safe := by
  intro r' hr'
  obtain ⟨r, hr, halike⟩ := h.right r' hr'
  exact halike.symm.safe (hsafe r hr)

theorem isLeveling (h : SameRules rules rules') {level : Relation → Nat}
    (hlevel : IsLeveling rules level) : IsLeveling rules' level := by
  intro r' hr' head hhead l hl
  obtain ⟨r, hr, halike⟩ := h.right r' hr'
  exact hlevel r hr head (halike.head ▸ hhead) l ((halike.body l).1 hl)

theorem isClosed_reduct (h : SameRules rules rules') {X : Set Atom}
    (hX : IsClosed (reduct rules M) X) : IsClosed (reduct rules' M) X := by
  rw [isClosed_reduct_iff] at hX ⊢
  intro r' hr' head σ hhead hpos hrest
  obtain ⟨r, hr, halike⟩ := h.right r' hr'
  refine hX r hr head σ (halike.head ▸ hhead) (fun p hp ↦ hpos p ((halike.body _).2 hp)) ?_
  exact fun l hl hl' ↦ halike.holds_iff.1 (hrest l ((halike.body l).2 hl) hl')

theorem isAnswerSet (h : SameRules rules rules') (hM : IsAnswerSet rules M) :
    IsAnswerSet rules' M :=
  ⟨h.isClosed_reduct hM.1, fun _ hX ↦ hM.2 (h.symm.isClosed_reduct hX)⟩

theorem violates (h : SameRules rules rules') (hM : Violates rules M) : Violates rules' M := by
  obtain ⟨r, hr, hhead, σ, hbody⟩ := hM
  obtain ⟨r', hr', halike⟩ := h.left r hr
  exact ⟨r', hr', halike.head ▸ hhead, σ, halike.bodyHolds_iff.1 hbody⟩

end SameRules

/-- Rearranged rules say the same. -/
theorem Rearranged.sameRules {rules rules' : List Rule} (h : Rearranged rules rules') :
    SameRules rules rules' := by
  induction h with
  | reorder h => exact .of_mem_iff fun r ↦ h.mem_iff
  | duplicate h =>
    refine .of_mem_iff fun s ↦ ?_
    rw [List.mem_cons]
    refine (or_iff_right_of_imp ?_).symm
    rintro rfl
    exact h
  | reorderBody before behind h => exact .of_replace ⟨rfl, fun l ↦ h.mem_iff⟩
  | trans _ _ ih ih' => exact ih.trans ih'

/-! ## Answers are listed in order -/

namespace Database

variable {db db' : Database}

/-- The atoms of a database are listed in an order that only depends on what they are. -/
theorem atoms_congr (hdb : db.WellFormed) (hdb' : db'.WellFormed)
    (h : {a | a ∈ db.atoms} = {a | a ∈ db'.atoms}) : db.atoms = db'.atoms := by
  rw [setOf_mem_atoms hdb, setOf_mem_atoms hdb'] at h
  have hcontains : ∀ {db db' : Database}, db.WellFormed → db.atomSet = db'.atomSet →
      ∀ d : Derived, db.contains d.1 d.2 = true → db'.contains d.1 d.2 = true := by
    intro db db' hdb h d hd
    have hrelation := hdb.relation_atomOf hd
    have hmem : db.contains (atomOf d).relation d.2 = true := hrelation.symm ▸ hd
    have hmem' : db'.contains (atomOf d).relation d.2 = true := by
      show atomOf d ∈ db'.atomSet
      rw [← h]
      exact hmem
    rwa [hrelation] at hmem'
  rw [atoms_eq_map, atoms_eq_map]
  refine congrArg _ (eq_of_ordered db.ordered_derived db'.ordered_derived fun d ↦ ?_)
  rw [mem_derived, mem_derived]
  exact ⟨hcontains hdb h d, hcontains hdb' h.symm d⟩

end Database

/-! ## How evaluations end -/

/-- The evaluations end in the same way.  Two models must have the same atoms in the same order;
other ends may be blamed on different lines or predicates. -/
def Evaluation.Agrees : Evaluation → Evaluation → Prop
  | .model atoms, .model atoms' => atoms = atoms'
  | .constraintViolated _, .constraintViolated _ => True
  | .notStratifiable _, .notStratifiable _ => True
  | .budgetExceeded, .budgetExceeded => True
  | _, _ => False

namespace SameRules

variable {rules rules' : List Rule} {levels levels' : Levels} {db db' : Database}

/-- Both final databases are the only answer set. -/
theorem atoms_eq (h : SameRules rules rules') (hsafe : ∀ r ∈ rules, r.Safe)
    (hlevels : stratify rules = .ok levels) (hlevels' : stratify rules' = .ok levels')
    (hdb : IsFinal rules levels db) (hdb' : IsFinal rules' levels' db') : db'.atoms = db.atoms := by
  have hanswer := h.symm.isAnswerSet (hdb'.isAnswerSet (h.safe hsafe) hlevels')
  exact Database.atoms_congr hdb'.wellFormed hdb.wellFormed (hdb.unique hsafe hlevels hanswer)

theorem agrees_of_isFinal (h : SameRules rules rules') (hsafe : ∀ r ∈ rules, r.Safe)
    (hlevels : stratify rules = .ok levels) (hlevels' : stratify rules' = .ok levels')
    (hdb : IsFinal rules levels db) (hdb' : IsFinal rules' levels' db') (budget : Nat) :
    (evaluate budget rules).Agrees (evaluate budget rules') := by
  have hsafe' := h.safe hsafe
  have hatoms := h.atoms_eq hsafe hlevels hlevels' hdb hdb'
  by_cases hbudget : budget < db.atoms.length
  · rw [hdb.evaluate_of_lt hlevels hbudget, hdb'.evaluate_of_lt hlevels' (hatoms ▸ hbudget)]
    trivial
  have hle := Nat.le_of_not_lt hbudget
  have hle' : db'.atoms.length ≤ budget := hatoms ▸ hle
  by_cases hviolates : Violates rules {a | a ∈ db.atoms}
  · have hviolates' := h.violates hviolates
    rw [← hatoms] at hviolates'
    obtain ⟨line, hline⟩ := (hdb.exists_constraintViolated_iff hsafe hlevels hle).2 hviolates
    obtain ⟨line', hline'⟩ := (hdb'.exists_constraintViolated_iff hsafe' hlevels' hle').2 hviolates'
    rw [hline, hline']
    trivial
  · have hviolates' : ¬ Violates rules' {a | a ∈ db'.atoms} := by
      rw [hatoms]
      exact fun hviolates' ↦ hviolates (h.symm.violates hviolates')
    rw [hdb.evaluate_of_not_violates hsafe hlevels hle hviolates,
      hdb'.evaluate_of_not_violates hsafe' hlevels' hle' hviolates']
    exact hatoms.symm

end SameRules

/-- Rules that say the same are evaluated in the same way. -/
theorem SameRules.evaluate {rules rules' : List Rule} (h : SameRules rules rules')
    (hsafe : ∀ r ∈ rules, r.Safe) (budget : Nat) :
    (evaluate budget rules).Agrees (evaluate budget rules') := by
  by_cases hlevel : ∃ level, IsLeveling rules level
  · obtain ⟨levels, hlevels⟩ := exists_stratify_iff.2 hlevel
    obtain ⟨levels', hlevels'⟩ :=
      exists_stratify_iff.2 (hlevel.imp fun _ hlevel ↦ h.isLeveling hlevel)
    obtain ⟨db, hdb⟩ := exists_isFinal hsafe levels
    obtain ⟨db', hdb'⟩ := exists_isFinal (h.safe hsafe) levels'
    exact h.agrees_of_isFinal hsafe hlevels hlevels' hdb hdb' budget
  · have hlevel' : ¬ ∃ level, IsLeveling rules' level := fun hlevel' ↦
      hlevel (hlevel'.imp fun _ hlevel' ↦ h.symm.isLeveling hlevel')
    obtain ⟨predicate, heq⟩ := exists_notStratifiable hlevel budget
    obtain ⟨predicate', heq'⟩ := exists_notStratifiable hlevel' budget
    rw [heq, heq']
    trivial

/-- **The order of rules carries no meaning.**  Take rules that were read from a text, and any list
that comes from it by putting rules into another order, repeating rules and putting the literals of
bodies into another order.  With every budget both evaluations end in the same way, and if this is
with a model, then with the same list of atoms. -/
theorem evaluate_rearranged {text : String} {rules rules' : List Rule}
    (hparse : parseProgram text = .ok rules) (h : Rearranged rules rules') (budget : Nat) :
    (evaluate budget rules).Agrees (evaluate budget rules') :=
  h.sameRules.evaluate (safe_of_parseProgram hparse) budget

/-- The rules for the nodes that no edge leads to, with the literals of the second one the other way
around, in front of the fact, which is stated twice. -/
def rearrangedSources : List Rule :=
  [⟨some ⟨"source", [.var "X"]⟩,
      [.neg ⟨"edge", [.var "_2", .var "X"]⟩, .pos ⟨"edge", [.var "X", .var "_1"]⟩], 2⟩,
    ⟨some ⟨"edge", [.const (.int 1), .const (.int 2)]⟩, [], 1⟩,
    ⟨some ⟨"edge", [.const (.int 1), .const (.int 2)]⟩, [], 1⟩]

theorem evaluate_rearranged_sources :
    parseProgram "edge(1,2).\nsource(X) :- edge(X,_), not edge(_,X)." = .ok sources ∧
      Rearranged sources rearrangedSources ∧
      ∀ budget, (evaluate budget sources).Agrees (evaluate budget rearrangedSources) := by
  have hduplicate : Rearranged sources (sources[0] :: sources) := .duplicate List.mem_cons_self
  have hrotate : (sources[0] :: sources).Perm [sources[1], sources[0], sources[0]] := by decide
  have hswap : sources[1].body.Perm rearrangedSources[0].body := .swap _ _ _
  have hsources : Rearranged sources rearrangedSources :=
    (hduplicate.trans (.reorder hrotate)).trans (.reorderBody [] _ hswap)
  exact ⟨parseProgram_sources, hsources, evaluate_rearranged parseProgram_sources hsources⟩

end RightOfWay
