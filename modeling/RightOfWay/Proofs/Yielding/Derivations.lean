import RightOfWay.Proofs.Arbitration.Solving
import RightOfWay.Proofs.Yielding.RuleBase

/-!
# What the traffic rules derive

The answer set of the traffic rules behind facts, relation by relation.

* An atom is in the answer set of a program with facts if it is a fact or if the rules derive it
  (`derivable_programRules`).
* A `Situation` is an answer set of the traffic rules behind facts that say nothing about the
  relations that the rules are there to derive.  For these a rule with the relation in its head must
  have been used (`Situation.mem_iff_derives`), and for all others nothing but a fact will do
  (`Situation.mem_iff_mem_facts`).
* The lemmas `Situation.mem_waiting`, `Situation.mem_intends` and so on read the rules of one
  relation as a condition on the facts and on the relations below.
-/

set_option autoImplicit false

namespace RightOfWay

variable {facts : List Atom} {rules : List Rule} {M : Set Atom} {a : Atom}

/-! ## Derivations from one rule -/

/-- Some instance of the rule with a true body has the atom as its head. -/
def Rule.Derives (r : Rule) (M : Set Atom) (a : Atom) : Prop :=
  ∃ head σ, r.head = some head ∧ head.atom σ = a ∧ r.BodyHolds M σ

theorem Rule.Derives.relation_eq {r : Rule} (h : r.Derives M a) :
    r.head.map Pattern.relation = some a.relation := by
  obtain ⟨head, σ, hhead, rfl, -⟩ := h
  rw [hhead, Pattern.relation_atom]
  rfl

theorem Rule.derives_ofAtom {b : Atom} {line : Nat} : (ofAtom b line).Derives M a ↔ a = b := by
  have hatom : ∀ σ, (Pattern.mk b.predicate (b.args.map .const)).atom σ = b := by
    intro σ
    rw [Pattern.atom, List.map_map]
    exact congrArg (Atom.mk b.predicate) (List.map_id' b.args)
  constructor
  · rintro ⟨_, σ, ⟨⟩, rfl, -⟩
    exact hatom σ
  · rintro rfl
    exact ⟨_, fun _ ↦ .int 0, rfl, hatom _, List.forall_mem_nil _⟩

theorem derivable_iff : Derivable rules M a ↔ ∃ r ∈ rules, r.Derives M a := Iff.rfl

/-- Behind facts, rules derive the facts and what they derive anyway. -/
theorem derivable_programRules :
    Derivable (programRules facts rules) M a ↔ a ∈ facts ∨ ∃ r ∈ rules, r.Derives M a := by
  rw [derivable_iff]
  constructor
  · rintro ⟨r, hr, hderives⟩
    rcases List.mem_append.1 hr with hfact | hrule
    · obtain ⟨b, hb, line, rfl⟩ := mem_factRules hfact
      rw [Rule.derives_ofAtom.1 hderives]
      exact .inl hb
    · obtain ⟨s, hs, rfl⟩ := List.mem_map.1 hrule
      exact .inr ⟨s, hs, hderives⟩
  · rintro (ha | ⟨r, hr, hderives⟩)
    · obtain ⟨k, hk, rfl⟩ := List.getElem_of_mem ha
      refine ⟨.ofAtom facts[k] (k + 1), List.mem_append_left _ ?_, Rule.derives_ofAtom.2 rfl⟩
      exact List.mem_mapIdx.2 ⟨k, hk, rfl⟩
    · exact ⟨r.shift facts.length, List.mem_append_right _ (List.mem_map_of_mem hr), hderives⟩

/-! ## Choosing terms for variables -/

/-- The variables of an argument. -/
def Arg.vars : Arg → List String
  | .var name => [name]
  | .const _ => []

/-- The variables of a literal. -/
def Literal.vars : Literal → List String
  | .pos p => p.args.flatMap Arg.vars
  | .neg p => p.args.flatMap Arg.vars
  | .cmp lhs _ rhs => lhs.vars ++ rhs.vars

theorem Pattern.atom_congr_vars {σ τ : Valuation} {p : Pattern}
    (h : ∀ x ∈ p.args.flatMap Arg.vars, σ x = τ x) : p.atom σ = p.atom τ :=
  atom_congr fun x hx ↦ h x (List.mem_flatMap.2 ⟨_, hx, List.mem_singleton_self x⟩)

/-- Only the variables of a literal matter to its truth. -/
theorem Literal.Holds.congr_valuation {r : Rule} {σ τ : Valuation} {l : Literal}
    (h : ∀ x ∈ l.vars, σ x = τ x) (hl : l.Holds r M σ) : l.Holds r M τ := by
  cases l with
  | pos p =>
    rw [Holds, ← Pattern.atom_congr_vars h]
    exact hl
  | neg p =>
    intro υ hυ
    -- the variant of `τ`, taken as a variant of `σ`
    obtain ⟨υ', hυ', hatom⟩ : ∃ υ', r.Variant σ υ' ∧ p.atom υ' = p.atom υ := by
      refine Rule.Variant.exists_atom_eq fun x hx ↦ ?_
      rw [h x (List.mem_flatMap.2 ⟨_, hx, List.mem_singleton_self x⟩)]
      exact hυ x
    rw [← hatom]
    exact hl υ' hυ'
  | cmp lhs c rhs =>
    have hlhs : lhs.value σ = lhs.value τ :=
      Arg.value_congr fun x hx ↦ h x (List.mem_append_left _ (hx ▸ List.mem_singleton_self x))
    have hrhs : rhs.value σ = rhs.value τ :=
      Arg.value_congr fun x hx ↦ h x (List.mem_append_right _ (hx ▸ List.mem_singleton_self x))
    rw [Holds, ← hlhs, ← hrhs]
    exact hl

/-- The property holds for some choice of terms for the variables, one after the other. -/
def ForSome : List String → (Valuation → Prop) → Prop
  | [], P => P fun _ ↦ .int 0
  | x :: xs, P => ∃ t, ForSome xs fun σ ↦ P fun y ↦ if y = x then t else σ y

/-- If only these variables matter, then choosing terms for them is choosing a valuation. -/
theorem forSome_iff {xs : List String} {P : Valuation → Prop}
    (hP : ∀ σ τ : Valuation, (∀ x ∈ xs, σ x = τ x) → P σ → P τ) : ForSome xs P ↔ ∃ σ, P σ := by
  induction xs generalizing P with
  | nil => exact ⟨fun h ↦ ⟨_, h⟩, fun ⟨σ, h⟩ ↦ hP σ _ nofun h⟩
  | cons x xs ih =>
    have htail : ∀ t, ∀ σ τ : Valuation, (∀ y ∈ xs, σ y = τ y) →
        P (fun y ↦ if y = x then t else σ y) → P (fun y ↦ if y = x then t else τ y) := by
      intro t σ τ hagree
      refine hP _ _ fun y hy ↦ ?_
      by_cases hyx : y = x
      · rw [if_pos hyx, if_pos hyx]
      · rw [if_neg hyx, if_neg hyx]
        exact hagree y ((List.mem_cons.1 hy).resolve_left hyx)
    constructor
    · rintro ⟨t, hchoice⟩
      obtain ⟨σ, hσ⟩ := (ih (htail t)).1 hchoice
      exact ⟨_, hσ⟩
    · rintro ⟨σ, hσ⟩
      refine ⟨σ x, (ih (htail (σ x))).2 ⟨σ, hP σ _ (fun y _ ↦ ?_) hσ⟩⟩
      by_cases hyx : y = x
      · rw [if_pos hyx, hyx]
      · rw [if_neg hyx]

/-- The variables of a rule. -/
def Rule.vars (r : Rule) : List String :=
  ((r.head.map fun head ↦ head.args.flatMap Arg.vars).getD [] ++
    r.body.flatMap Literal.vars).eraseDups

/-- **A rule derives an atom if it does so for some choice of terms for its variables.** -/
theorem Rule.derives_iff_forSome {r : Rule} {head : Pattern} (hhead : r.head = some head) :
    r.Derives M a ↔ ForSome r.vars fun σ ↦ head.atom σ = a ∧ r.BodyHolds M σ := by
  rw [forSome_iff]
  · constructor
    · rintro ⟨_, σ, hhead', hatom, hbody⟩
      cases hhead.symm.trans hhead'
      exact ⟨σ, hatom, hbody⟩
    · rintro ⟨σ, hatom, hbody⟩
      exact ⟨head, σ, hhead, hatom, hbody⟩
  · rintro σ τ hagree ⟨hatom, hbody⟩
    have hvars : ∀ x, (x ∈ head.args.flatMap Arg.vars ∨ ∃ l ∈ r.body, x ∈ l.vars) → σ x = τ x := by
      intro x hx
      refine hagree x ?_
      rw [vars, hhead, List.mem_eraseDups, List.mem_append, List.mem_flatMap]
      exact hx
    refine ⟨?_, fun l hl ↦ (hbody l hl).congr_valuation fun x hx ↦ hvars x (.inr ⟨l, hl, hx⟩)⟩
    rw [← hatom]
    exact Pattern.atom_congr_vars fun x hx ↦ (hvars x (.inl hx)).symm

/-! ## Rules over variables -/

@[simp] theorem Pattern.atom_over (σ : Valuation) (predicate : String) (names : List String) :
    (Pattern.over predicate names).atom σ = ⟨predicate, names.map σ⟩ := by
  rw [Pattern.over, atom, List.map_map]
  rfl

/-- Without anonymous variables there is only one instance of a negative literal. -/
theorem Literal.holds_neg_over {r : Rule} {σ : Valuation} {predicate : String} {names : List String}
    (h : ∀ x ∈ names, isAnonymous x = false) :
    (Literal.neg (.over predicate names)).Holds r M σ ↔ ⟨predicate, names.map σ⟩ ∉ M := by
  constructor
  · intro hnone
    have hself := hnone σ (Rule.Variant.refl r σ)
    rwa [Pattern.atom_over] at hself
  · intro hself τ hτ
    have hagree : names.map τ = names.map σ := List.map_congr_left fun x hx ↦ by
      rcases hτ x with heq | ⟨hanonymous, -⟩
      · exact heq
      · rw [h x hx] at hanonymous
        cases hanonymous
    rwa [Pattern.atom_over, hagree]

/-! ## Rule by rule

Each rule with its variables written out.  The atoms of the body and the comparisons stand in the
order of the rule file. -/

theorem Literal.holds_pos {r : Rule} {σ : Valuation} {p : Pattern} :
    (Literal.pos p).Holds r M σ ↔ p.atom σ ∈ M := Iff.rfl

theorem Literal.holds_cmp {r : Rule} {σ : Valuation} {x y : String} {c : Comparison} :
    (Literal.cmp (.var x) c (.var y)).Holds r M σ ↔ c.holds (σ x) (σ y) = true := Iff.rfl

theorem derives_enteredRule {v : Term} :
    enteredRule.Derives M ⟨"entered", [v]⟩ ↔
      ∃ f t, ⟨"entersForkAtTime", [v, f, t]⟩ ∈ M := by
  have hvars : enteredRule.vars = ["V", "_1", "_2"] := by decide
  rw [Rule.derives_iff_forSome rfl, hvars]
  simp (disch := decide) [ForSome, enteredRule, Rule.BodyHolds, Literal.holds_pos]

theorem derives_waitingRule {v f t : Term} :
    waitingRule.Derives M ⟨"waiting", [v, f, t]⟩ ↔
      ⟨"arrivesAtForkAtTime", [v, f, t]⟩ ∈ M ∧ ⟨"entered", [v]⟩ ∉ M := by
  have hvars : waitingRule.vars = ["V", "F", "T"] := by decide
  rw [Rule.derives_iff_forSome rfl, hvars]
  simp (disch := decide) [ForSome, waitingRule, Rule.BodyHolds, Literal.holds_pos,
    Literal.holds_neg_over]

theorem derives_leftLaneRule {v l : Term} :
    leftLaneRule.Derives M ⟨"leftLane", [v, l]⟩ ↔
      ∃ t, ⟨"leavesLaneAtTime", [v, l, t]⟩ ∈ M := by
  have hvars : leftLaneRule.vars = ["V", "L", "_3"] := by decide
  rw [Rule.derives_iff_forSome rfl, hvars]
  simp (disch := decide) [ForSome, leftLaneRule, Rule.BodyHolds, Literal.holds_pos]

theorem derives_inLaneRule {v l : Term} :
    inLaneRule.Derives M ⟨"inLane", [v, l]⟩ ↔
      (∃ t, ⟨"entersLaneAtTime", [v, l, t]⟩ ∈ M) ∧ ⟨"leftLane", [v, l]⟩ ∉ M := by
  have hvars : inLaneRule.vars = ["V", "L", "_4"] := by decide
  rw [Rule.derives_iff_forSome rfl, hvars]
  simp (disch := decide) [ForSome, inLaneRule, Rule.BodyHolds, Literal.holds_pos,
    Literal.holds_neg_over]

theorem derives_signalledRule {v : Term} :
    signalledRule.Derives M ⟨"signalled", [v]⟩ ↔
      ∃ s f t, ⟨"signalsAtForkAtTime", [v, s, f, t]⟩ ∈ M := by
  have hvars : signalledRule.vars = ["V", "_5", "_6", "_7"] := by decide
  rw [Rule.derives_iff_forSome rfl, hvars]
  simp (disch := decide) [ForSome, signalledRule, Rule.BodyHolds, Literal.holds_pos]

theorem derives_intendsBySignalRule {v l : Term} :
    intendsBySignalRule.Derives M ⟨"intends", [v, l]⟩ ↔
      ∃ f, (∃ t, ⟨"waiting", [v, f, t]⟩ ∈ M) ∧ (∃ e, ⟨"laneFromTo", [l, f, e]⟩ ∈ M) ∧
        ∃ s, (∃ u, ⟨"signalsAtForkAtTime", [v, s, f, u]⟩ ∈ M) ∧
          ⟨"laneCorrectSignal", [l, s]⟩ ∈ M := by
  have hvars : intendsBySignalRule.vars = ["V", "L", "F", "_8", "_9", "S", "_10"] := by decide
  rw [Rule.derives_iff_forSome rfl, hvars]
  simp (disch := decide) [ForSome, intendsBySignalRule, Rule.BodyHolds, Literal.holds_pos]

theorem derives_intendsAnywhereRule {v l : Term} :
    intendsAnywhereRule.Derives M ⟨"intends", [v, l]⟩ ↔
      ∃ f, (∃ t, ⟨"waiting", [v, f, t]⟩ ∈ M) ∧ (∃ e, ⟨"laneFromTo", [l, f, e]⟩ ∈ M) ∧
        ⟨"signalled", [v]⟩ ∉ M := by
  have hvars : intendsAnywhereRule.vars = ["V", "L", "F", "_11", "_12"] := by decide
  rw [Rule.derives_iff_forSome rfl, hvars]
  simp (disch := decide) [ForSome, intendsAnywhereRule, Rule.BodyHolds, Literal.holds_pos,
    Literal.holds_neg_over]

theorem derives_arrivedEarlierRule {w v : Term} :
    arrivedEarlierRule.Derives M ⟨"arrivedEarlier", [w, v]⟩ ↔
      ∃ f t, ⟨"waiting", [v, f, t]⟩ ∈ M ∧
        ∃ g u, ⟨"waiting", [w, g, u]⟩ ∈ M ∧ Comparison.lt.holds u t = true := by
  have hvars : arrivedEarlierRule.vars = ["W", "V", "_13", "T", "_14", "U"] := by decide
  rw [Rule.derives_iff_forSome rfl, hvars]
  simp (disch := decide) [ForSome, arrivedEarlierRule, Rule.BodyHolds, Literal.holds_pos,
    Literal.holds_cmp]

theorem derives_yieldsToRightRule {v w : Term} :
    yieldsToRightRule.Derives M ⟨"yieldsToRight", [v, w]⟩ ↔
      ∃ f t, ⟨"waiting", [v, f, t]⟩ ∈ M ∧ ∃ g, ⟨"waiting", [w, g, t]⟩ ∈ M ∧
        ⟨"isOnRightOf", [g, f]⟩ ∈ M ∧ Comparison.ne.holds v w = true := by
  have hvars : yieldsToRightRule.vars = ["V", "W", "F", "T", "G"] := by decide
  rw [Rule.derives_iff_forSome rfl, hvars]
  simp (disch := decide) [ForSome, yieldsToRightRule, Rule.BodyHolds, Literal.holds_pos,
    Literal.holds_cmp]

theorem derives_blockedRule {v : Term} :
    blockedRule.Derives M ⟨"blocked", [v]⟩ ↔
      ∃ l, ⟨"intends", [v, l]⟩ ∈ M ∧ ∃ w k, ⟨"inLane", [w, k]⟩ ∈ M ∧
        ⟨"overlaps", [l, k]⟩ ∈ M ∧ Comparison.ne.holds v w = true := by
  have hvars : blockedRule.vars = ["V", "L", "W", "M"] := by decide
  rw [Rule.derives_iff_forSome rfl, hvars]
  simp (disch := decide) [ForSome, blockedRule, Rule.BodyHolds, Literal.holds_pos,
    Literal.holds_cmp]

theorem derives_stopForEarlierRule {v : Term} :
    stopForEarlierRule.Derives M ⟨"mustStopToYield", [v]⟩ ↔
      ∃ w, ⟨"arrivedEarlier", [w, v]⟩ ∈ M := by
  have hvars : stopForEarlierRule.vars = ["V", "_15"] := by decide
  rw [Rule.derives_iff_forSome rfl, hvars]
  simp (disch := decide) [ForSome, stopForEarlierRule, Rule.BodyHolds, Literal.holds_pos]

theorem derives_stopForRightRule {v : Term} :
    stopForRightRule.Derives M ⟨"mustStopToYield", [v]⟩ ↔
      ∃ w, ⟨"yieldsToRight", [v, w]⟩ ∈ M := by
  have hvars : stopForRightRule.vars = ["V", "_16"] := by decide
  rw [Rule.derives_iff_forSome rfl, hvars]
  simp (disch := decide) [ForSome, stopForRightRule, Rule.BodyHolds, Literal.holds_pos]

theorem derives_stopForBlockedRule {v : Term} :
    stopForBlockedRule.Derives M ⟨"mustStopToYield", [v]⟩ ↔
      ⟨"blocked", [v]⟩ ∈ M := by
  have hvars : stopForBlockedRule.vars = ["V"] := by decide
  rw [Rule.derives_iff_forSome rfl, hvars]
  simp (disch := decide) [ForSome, stopForBlockedRule, Rule.BodyHolds, Literal.holds_pos]

theorem derives_goRule {v : Term} :
    goRule.Derives M ⟨"hasRightOfWay", [v]⟩ ↔
      (∃ f t, ⟨"waiting", [v, f, t]⟩ ∈ M) ∧ ⟨"mustStopToYield", [v]⟩ ∉ M := by
  have hvars : goRule.vars = ["V", "_17", "_18"] := by decide
  rw [Rule.derives_iff_forSome rfl, hvars]
  simp (disch := decide) [ForSome, goRule, Rule.BodyHolds, Literal.holds_pos,
    Literal.holds_neg_over]

/-! ## Situations -/

/-- The predicates of facts. -/
def inputPredicates : List String :=
  ["arrivesAtForkAtTime", "signalsAtForkAtTime", "entersForkAtTime", "entersLaneAtTime",
    "leavesLaneAtTime", "isOnRightOf", "laneFromTo", "laneCorrectSignal", "overlaps"]

/-- The set is an answer to the traffic rules behind these facts, which concern the input predicates
only. -/
structure Situation (facts : List Atom) (M : Set Atom) : Prop where
  isAnswerSet : IsAnswerSet (programRules facts yieldRules) M
  input : ∀ a ∈ facts, a.predicate ∈ inputPredicates

/-- The rules with a head of the relation. -/
def rulesFor (r : Relation) : List Rule :=
  yieldRules.filter fun rule ↦ rule.head.map Pattern.relation == some r

theorem rulesFor_eq_nil {r : Relation} (h : r.name ∈ inputPredicates) : rulesFor r = [] := by
  have hheads : ∀ rule ∈ yieldRules, ∀ head ∈ rule.head, head.predicate ∉ inputPredicates := by
    decide
  refine List.filter_eq_nil_iff.2 fun rule hrule hhead ↦ ?_
  obtain ⟨head, hsome, rfl⟩ := Option.map_eq_some_iff.1 (beq_iff_eq.1 hhead)
  exact hheads rule hrule head hsome h

namespace Situation

theorem mem_iff (h : Situation facts M) :
    a ∈ M ↔ a ∈ facts ∨ ∃ r ∈ rulesFor a.relation, r.Derives M a := by
  rw [h.isAnswerSet.mem_iff, derivable_programRules]
  refine or_congr_right ⟨?_, ?_⟩
  · rintro ⟨r, hr, hderives⟩
    exact ⟨r, List.mem_filter.2 ⟨hr, beq_iff_eq.2 hderives.relation_eq⟩, hderives⟩
  · rintro ⟨r, hr, hderives⟩
    exact ⟨r, List.mem_of_mem_filter hr, hderives⟩

/-- Of the input relations, the answer holds the facts. -/
theorem mem_iff_mem_facts (h : Situation facts M) {predicate : String} {args : List Term}
    (hinput : predicate ∈ inputPredicates) : ⟨predicate, args⟩ ∈ M ↔ ⟨predicate, args⟩ ∈ facts := by
  rw [h.mem_iff, rulesFor_eq_nil hinput]
  simp

/-- Of the other relations, the answer holds what their rules derive. -/
theorem mem_iff_derives (h : Situation facts M) {rules : List Rule} (hne : rules ≠ [])
    (hrules : rulesFor a.relation = rules) : a ∈ M ↔ ∃ r ∈ rules, r.Derives M a := by
  rw [h.mem_iff, hrules]
  refine or_iff_right fun hfact ↦ hne ?_
  rw [← hrules]
  exact rulesFor_eq_nil (h.input a hfact)

theorem mem_iff_derives_singleton (h : Situation facts M) {r : Rule}
    (hrules : rulesFor a.relation = [r]) : a ∈ M ↔ r.Derives M a := by
  rw [h.mem_iff_derives (List.cons_ne_nil r []) hrules]
  simp

/-- Verdicts are about one thing. -/
theorem exists_args_of_verdict (h : Situation facts M) (ha : a ∈ M)
    (hverdict : a.predicate = "mustStopToYield" ∨ a.predicate = "hasRightOfWay") :
    ∃ x, a.args = [x] := by
  have hheads : ∀ r ∈ yieldRules, ∀ head ∈ r.head,
      head.predicate = "mustStopToYield" ∨ head.predicate = "hasRightOfWay" →
        head.args.length = 1 := by
    decide
  have hderived : a.predicate ∉ inputPredicates := by
    rcases hverdict with heq | heq <;> rw [heq] <;> decide
  rcases h.mem_iff.1 ha with hfact | ⟨r, hr, head, σ, hhead, rfl, -⟩
  · exact absurd (h.input a hfact) hderived
  · have hlength := hheads r (List.mem_of_mem_filter hr) head hhead hverdict
    rw [← List.length_map (Arg.value σ)] at hlength
    exact List.length_eq_one_iff.1 hlength

/-! ## Relation by relation -/

variable {v w f l t : Term}

theorem mem_entered (h : Situation facts M) :
    ⟨"entered", [v]⟩ ∈ M ↔
      ∃ f t, ⟨"entersForkAtTime", [v, f, t]⟩ ∈ facts := by
  have hrules : rulesFor ⟨"entered", 1⟩ = [enteredRule] := by decide
  refine Iff.trans (h.mem_iff_derives_singleton hrules) ?_
  rw [derives_enteredRule]
  simp only [h.mem_iff_mem_facts (by decide : "entersForkAtTime" ∈ inputPredicates)]

theorem mem_waiting (h : Situation facts M) :
    ⟨"waiting", [v, f, t]⟩ ∈ M ↔
      ⟨"arrivesAtForkAtTime", [v, f, t]⟩ ∈ facts ∧
        ∀ g u, ⟨"entersForkAtTime", [v, g, u]⟩ ∉ facts := by
  have hrules : rulesFor ⟨"waiting", 3⟩ = [waitingRule] := by decide
  refine Iff.trans (h.mem_iff_derives_singleton hrules) ?_
  rw [derives_waitingRule, h.mem_entered]
  simp [h.mem_iff_mem_facts (by decide : "arrivesAtForkAtTime" ∈ inputPredicates)]

theorem mem_leftLane (h : Situation facts M) :
    ⟨"leftLane", [v, l]⟩ ∈ M ↔
      ∃ t, ⟨"leavesLaneAtTime", [v, l, t]⟩ ∈ facts := by
  have hrules : rulesFor ⟨"leftLane", 2⟩ = [leftLaneRule] := by decide
  refine Iff.trans (h.mem_iff_derives_singleton hrules) ?_
  rw [derives_leftLaneRule]
  simp only [h.mem_iff_mem_facts (by decide : "leavesLaneAtTime" ∈ inputPredicates)]

theorem mem_inLane (h : Situation facts M) :
    ⟨"inLane", [v, l]⟩ ∈ M ↔
      (∃ t, ⟨"entersLaneAtTime", [v, l, t]⟩ ∈ facts) ∧
        ∀ t, ⟨"leavesLaneAtTime", [v, l, t]⟩ ∉ facts := by
  have hrules : rulesFor ⟨"inLane", 2⟩ = [inLaneRule] := by decide
  refine Iff.trans (h.mem_iff_derives_singleton hrules) ?_
  rw [derives_inLaneRule, h.mem_leftLane]
  simp [h.mem_iff_mem_facts (by decide : "entersLaneAtTime" ∈ inputPredicates)]

theorem mem_signalled (h : Situation facts M) :
    ⟨"signalled", [v]⟩ ∈ M ↔
      ∃ s f t, ⟨"signalsAtForkAtTime", [v, s, f, t]⟩ ∈ facts := by
  have hrules : rulesFor ⟨"signalled", 1⟩ = [signalledRule] := by decide
  refine Iff.trans (h.mem_iff_derives_singleton hrules) ?_
  rw [derives_signalledRule]
  simp only [h.mem_iff_mem_facts (by decide : "signalsAtForkAtTime" ∈ inputPredicates)]

theorem mem_intends (h : Situation facts M) :
    ⟨"intends", [v, l]⟩ ∈ M ↔
      ∃ f, (∃ t, ⟨"waiting", [v, f, t]⟩ ∈ M) ∧ (∃ e, ⟨"laneFromTo", [l, f, e]⟩ ∈ facts) ∧
        ((∃ s, (∃ u, ⟨"signalsAtForkAtTime", [v, s, f, u]⟩ ∈ facts) ∧
            ⟨"laneCorrectSignal", [l, s]⟩ ∈ facts) ∨
          ∀ s g u, ⟨"signalsAtForkAtTime", [v, s, g, u]⟩ ∉ facts) := by
  have hrules : rulesFor ⟨"intends", 2⟩ = [intendsBySignalRule, intendsAnywhereRule] := by
    decide
  refine Iff.trans (h.mem_iff_derives (List.cons_ne_nil _ _) hrules) ?_
  simp only [List.mem_cons, List.not_mem_nil, or_false, exists_eq_or_imp, exists_eq_left]
  rw [derives_intendsBySignalRule, derives_intendsAnywhereRule, h.mem_signalled, ← exists_or]
  simp [
    h.mem_iff_mem_facts (by decide : "laneFromTo" ∈ inputPredicates),
    h.mem_iff_mem_facts (by decide : "signalsAtForkAtTime" ∈ inputPredicates),
    h.mem_iff_mem_facts (by decide : "laneCorrectSignal" ∈ inputPredicates), ← and_or_left]

theorem mem_arrivedEarlier (h : Situation facts M) :
    ⟨"arrivedEarlier", [w, v]⟩ ∈ M ↔
      ∃ f t, ⟨"waiting", [v, f, t]⟩ ∈ M ∧
        ∃ g u, ⟨"waiting", [w, g, u]⟩ ∈ M ∧ Comparison.lt.holds u t = true := by
  have hrules : rulesFor ⟨"arrivedEarlier", 2⟩ = [arrivedEarlierRule] := by decide
  refine Iff.trans (h.mem_iff_derives_singleton hrules) ?_
  rw [derives_arrivedEarlierRule]

theorem mem_yieldsToRight (h : Situation facts M) :
    ⟨"yieldsToRight", [v, w]⟩ ∈ M ↔
      ∃ f t, ⟨"waiting", [v, f, t]⟩ ∈ M ∧ ∃ g, ⟨"waiting", [w, g, t]⟩ ∈ M ∧
        ⟨"isOnRightOf", [g, f]⟩ ∈ facts ∧ Comparison.ne.holds v w = true := by
  have hrules : rulesFor ⟨"yieldsToRight", 2⟩ = [yieldsToRightRule] := by decide
  refine Iff.trans (h.mem_iff_derives_singleton hrules) ?_
  rw [derives_yieldsToRightRule]
  simp only [h.mem_iff_mem_facts (by decide : "isOnRightOf" ∈ inputPredicates)]

theorem mem_blocked (h : Situation facts M) :
    ⟨"blocked", [v]⟩ ∈ M ↔
      ∃ l, ⟨"intends", [v, l]⟩ ∈ M ∧ ∃ w k, ⟨"inLane", [w, k]⟩ ∈ M ∧
        ⟨"overlaps", [l, k]⟩ ∈ facts ∧ Comparison.ne.holds v w = true := by
  have hrules : rulesFor ⟨"blocked", 1⟩ = [blockedRule] := by decide
  refine Iff.trans (h.mem_iff_derives_singleton hrules) ?_
  rw [derives_blockedRule]
  simp only [h.mem_iff_mem_facts (by decide : "overlaps" ∈ inputPredicates)]

theorem mem_mustStopToYield (h : Situation facts M) :
    ⟨"mustStopToYield", [v]⟩ ∈ M ↔
      (∃ w, ⟨"arrivedEarlier", [w, v]⟩ ∈ M) ∨ (∃ w, ⟨"yieldsToRight", [v, w]⟩ ∈ M) ∨
        ⟨"blocked", [v]⟩ ∈ M := by
  have hrules : rulesFor ⟨"mustStopToYield", 1⟩ =
      [stopForEarlierRule, stopForRightRule, stopForBlockedRule] := by
    decide
  refine Iff.trans (h.mem_iff_derives (List.cons_ne_nil _ _) hrules) ?_
  simp only [List.mem_cons, List.not_mem_nil, or_false, exists_eq_or_imp, exists_eq_left]
  rw [derives_stopForEarlierRule, derives_stopForRightRule, derives_stopForBlockedRule]

theorem mem_hasRightOfWay (h : Situation facts M) :
    ⟨"hasRightOfWay", [v]⟩ ∈ M ↔
      (∃ f t, ⟨"waiting", [v, f, t]⟩ ∈ M) ∧ ⟨"mustStopToYield", [v]⟩ ∉ M := by
  have hrules : rulesFor ⟨"hasRightOfWay", 1⟩ = [goRule] := by decide
  refine Iff.trans (h.mem_iff_derives_singleton hrules) ?_
  rw [derives_goRule]

end Situation
end RightOfWay
