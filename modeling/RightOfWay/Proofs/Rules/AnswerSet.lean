import Mathlib.Order.Bounds.Defs
import RightOfWay.Proofs.Rules.Leveling

/-!
# Answer sets

What a program means, said without evaluating it.

* A `Valuation` gives a term to every variable, and turns patterns into atoms and rules into ground
  rules.
* `Literal.Holds` says when an instance of a literal is true in a set of atoms.  A negative literal
  is true if no atom of the set matches it, whatever the anonymous variables stand for that the rule
  leaves open.
* `reduct` is the program that remains when a set of atoms is trusted about negation: the ground
  rules whose negative literals and comparisons are true in it, without those.
* `IsAnswerSet` asks for a set that is the least one closed under its own reduct.

Two facts about answer sets carry the rest of the development.  An atom is in an answer set exactly
if some instance of a rule derives it there (`IsAnswerSet.mem_iff`), and a program with a leveling
has at most one answer set (`IsAnswerSet.unique`).
-/

set_option autoImplicit false

namespace RightOfWay

/-! ## Instances -/

/-- The relation that an atom belongs to. -/
def Atom.relation (a : Atom) : Relation := ⟨a.predicate, a.args.length⟩

/-- A term for every variable. -/
abbrev Valuation := String → Term

/-- The term that an argument stands for. -/
def Arg.value (σ : Valuation) : Arg → Term
  | .var name => σ name
  | .const t => t

/-- The atom that a pattern becomes. -/
def Pattern.atom (σ : Valuation) (p : Pattern) : Atom := ⟨p.predicate, p.args.map (Arg.value σ)⟩

@[simp] theorem Pattern.relation_atom (σ : Valuation) (p : Pattern) :
    (p.atom σ).relation = p.relation := by
  simp [atom, relation, Atom.relation]

theorem Arg.value_congr {σ τ : Valuation} {a : Arg} (h : ∀ x, a = .var x → σ x = τ x) :
    a.value σ = a.value τ := by
  cases a with
  | var x => exact h x rfl
  | const t => rfl

/-- Only the variables of a pattern matter to the atom it becomes. -/
theorem Pattern.atom_congr {σ τ : Valuation} {p : Pattern} (h : ∀ x, .var x ∈ p.args → σ x = τ x) :
    p.atom σ = p.atom τ := by
  have hargs : p.args.map (Arg.value σ) = p.args.map (Arg.value τ) :=
    List.map_congr_left fun a ha ↦ Arg.value_congr fun x hx ↦ h x (hx ▸ ha)
  rw [atom, atom, hargs]

/-! ## Truth in a set of atoms -/

namespace Rule

/-- A positive literal of the rule binds the variable. -/
def Binds (r : Rule) (x : String) : Prop := ∃ p, .pos p ∈ r.body ∧ .var x ∈ p.args

/-- The second valuation differs from the first one at most in anonymous variables that no positive
literal of the rule binds. -/
def Variant (r : Rule) (σ τ : Valuation) : Prop :=
  ∀ x, τ x = σ x ∨ isAnonymous x = true ∧ ¬ r.Binds x

theorem Variant.refl (r : Rule) (σ : Valuation) : r.Variant σ σ := fun _ ↦ .inl rfl

/-- What a pattern becomes under `τ`, it becomes under a variant of `σ`, if its variables allow it.
Other variables are left as they are in `σ`. -/
theorem Variant.exists_atom_eq {r : Rule} {σ τ : Valuation} {p : Pattern}
    (h : ∀ x, .var x ∈ p.args → τ x = σ x ∨ isAnonymous x = true ∧ ¬ r.Binds x) :
    ∃ υ, r.Variant σ υ ∧ p.atom υ = p.atom τ := by
  refine ⟨fun x ↦ if .var x ∈ p.args then τ x else σ x, fun x ↦ ?_,
    Pattern.atom_congr fun x hx ↦ if_pos hx⟩
  by_cases hx : .var x ∈ p.args
  · simpa only [if_pos hx] using h x hx
  · exact .inl (if_neg hx)

end Rule

/-- The instance of a literal of the rule is true in the set. -/
def Literal.Holds (r : Rule) (M : Set Atom) (σ : Valuation) : Literal → Prop
  | .pos p => p.atom σ ∈ M
  | .neg p => ∀ τ, r.Variant σ τ → p.atom τ ∉ M
  | .cmp lhs c rhs => c.holds (lhs.value σ) (rhs.value σ) = true

/-- The instance of the rule's body is true in the set. -/
def Rule.BodyHolds (r : Rule) (M : Set Atom) (σ : Valuation) : Prop := ∀ l ∈ r.body, l.Holds r M σ

/-- Literals other than positive ones only look at the relations that they negate. -/
theorem Literal.Holds.congr {r : Rule} {M N : Set Atom} {σ : Valuation} {l : Literal}
    (hpos : l.isPositive = false)
    (h : ∀ p, l = .neg p → ∀ a : Atom, a.relation = p.relation → a ∈ N → a ∈ M)
    (hl : l.Holds r M σ) : l.Holds r N σ := by
  cases l with
  | pos p => cases hpos
  | neg p =>
    intro τ hτ hmem
    exact hl τ hτ (h p rfl _ (p.relation_atom τ) hmem)
  | cmp lhs c rhs => exact hl

/-! ## The reduct -/

/-- A rule between atoms, without negation. -/
structure GroundRule where
  head : Atom
  body : List Atom

/-- The patterns of the rule's positive literals. -/
def Rule.positives (r : Rule) : List Pattern :=
  r.body.filterMap fun
    | .pos p => some p
    | _ => none

theorem Rule.mem_positives {r : Rule} {p : Pattern} : p ∈ r.positives ↔ .pos p ∈ r.body := by
  rw [positives, List.mem_filterMap]
  constructor
  · rintro ⟨l, hl, hp⟩
    cases l <;> cases hp
    exact hl
  · intro hp
    exact ⟨.pos p, hp, rfl⟩

/-- All ground instances of the rules with heads whose negative literals and comparisons are true in
the set, reduced to their positive literals. -/
def reduct (rules : List Rule) (M : Set Atom) : Set GroundRule :=
  {g | ∃ r ∈ rules, ∃ head σ, r.head = some head ∧
    (∀ l ∈ r.body, l.isPositive = false → l.Holds r M σ) ∧
    g = ⟨head.atom σ, r.positives.map (Pattern.atom σ)⟩}

/-- The set contains what the ground rules derive from it. -/
def IsClosed (rules : Set GroundRule) (X : Set Atom) : Prop :=
  ∀ g ∈ rules, (∀ a ∈ g.body, a ∈ X) → g.head ∈ X

/-- The set is the least one that is closed under its own reduct. -/
def IsAnswerSet (rules : List Rule) (M : Set Atom) : Prop :=
  IsLeast {X | IsClosed (reduct rules M) X} M

theorem isClosed_reduct_iff {rules : List Rule} {M X : Set Atom} :
    IsClosed (reduct rules M) X ↔ ∀ r ∈ rules, ∀ head σ, r.head = some head →
      (∀ p, .pos p ∈ r.body → p.atom σ ∈ X) →
      (∀ l ∈ r.body, l.isPositive = false → l.Holds r M σ) → head.atom σ ∈ X := by
  constructor
  · intro h r hr head σ hhead hpos hrest
    refine h ⟨_, _⟩ ⟨r, hr, head, σ, hhead, hrest, rfl⟩ fun a ha ↦ ?_
    obtain ⟨p, hp, rfl⟩ := List.mem_map.1 ha
    exact hpos p (Rule.mem_positives.1 hp)
  · rintro h _ ⟨r, hr, head, σ, hhead, hrest, rfl⟩ hbody
    refine h r hr head σ hhead (fun p hp ↦ ?_) hrest
    exact hbody _ (List.mem_map.2 ⟨p, Rule.mem_positives.2 hp, rfl⟩)

theorem Rule.bodyHolds_iff {r : Rule} {M : Set Atom} {σ : Valuation} :
    r.BodyHolds M σ ↔ (∀ p, .pos p ∈ r.body → p.atom σ ∈ M) ∧
      ∀ l ∈ r.body, l.isPositive = false → l.Holds r M σ := by
  constructor
  · intro h
    exact ⟨fun p hp ↦ h _ hp, fun l hl _ ↦ h l hl⟩
  · rintro ⟨hpos, hrest⟩ l hl
    cases l with
    | pos p => exact hpos p hl
    | neg p => exact hrest _ hl rfl
    | cmp lhs c rhs => exact hrest _ hl rfl

/-! ## Facts about answer sets -/

/-- Some instance of a rule with a true body has the atom as its head. -/
def Derivable (rules : List Rule) (M : Set Atom) (a : Atom) : Prop :=
  ∃ r ∈ rules, ∃ head σ, r.head = some head ∧ head.atom σ = a ∧ r.BodyHolds M σ

namespace IsAnswerSet

variable {rules : List Rule} {M N : Set Atom}

/-- **An answer set contains what can be derived from it and nothing else.** -/
theorem mem_iff (h : IsAnswerSet rules M) {a : Atom} : a ∈ M ↔ Derivable rules M a := by
  have hclosed := isClosed_reduct_iff.1 h.1
  constructor
  · intro ha
    -- the derivable members are closed under the reduct, and nothing smaller than `M` is
    have hsub : IsClosed (reduct rules M) {b | b ∈ M ∧ Derivable rules M b} := by
      refine isClosed_reduct_iff.2 fun r hr head σ hhead hpos hrest ↦ ?_
      have hbody : r.BodyHolds M σ :=
        Rule.bodyHolds_iff.2 ⟨fun p hp ↦ (hpos p hp).1, hrest⟩
      exact ⟨hclosed r hr head σ hhead (fun p hp ↦ (hpos p hp).1) hrest,
        r, hr, head, σ, hhead, rfl, hbody⟩
    exact (h.2 hsub ha).2
  · rintro ⟨r, hr, head, σ, hhead, rfl, hbody⟩
    obtain ⟨hpos, hrest⟩ := Rule.bodyHolds_iff.1 hbody
    exact hclosed r hr head σ hhead hpos hrest

/-- One half of uniqueness: up to a level below which two answer sets agree, the first is contained
in the second. -/
theorem subset_upTo {level : Relation → Nat} (hlevel : IsLeveling rules level)
    (hM : IsAnswerSet rules M) (hN : IsAnswerSet rules N) {n : Nat}
    (hbelow : ∀ a : Atom, level a.relation < n → (a ∈ M ↔ a ∈ N)) {a : Atom} (ha : a ∈ M)
    (hn : level a.relation ≤ n) : a ∈ N := by
  have hclosedM := isClosed_reduct_iff.1 hM.1
  have hclosedN := isClosed_reduct_iff.1 hN.1
  have hsub : IsClosed (reduct rules M) {b | b ∈ M ∧ (level b.relation ≤ n → b ∈ N)} := by
    refine isClosed_reduct_iff.2 fun r hr head σ hhead hpos hrest ↦ ?_
    refine ⟨hclosedM r hr head σ hhead (fun p hp ↦ (hpos p hp).1) hrest, fun hle ↦ ?_⟩
    rw [Pattern.relation_atom] at hle
    have hadmits := hlevel r hr head hhead
    refine hclosedN r hr head σ hhead (fun p hp ↦ ?_) fun l hl hl' ↦ ?_
    · refine (hpos p hp).2 ?_
      rw [Pattern.relation_atom]
      exact (hadmits _ hp).trans hle
    · refine (hrest l hl hl').congr hl' fun p hlp b hb hbN ↦ ?_
      subst hlp
      have hlt : level p.relation < level head.relation := hadmits _ hl
      exact (hbelow b (by rw [hb]; exact hlt.trans_le hle)).2 hbN
  exact (hM.2 hsub ha).2 hn

/-- **A program with a leveling has at most one answer set.**  Two of them agree level by level. -/
theorem unique {level : Relation → Nat} (hlevel : IsLeveling rules level)
    (hM : IsAnswerSet rules M) (hN : IsAnswerSet rules N) : M = N := by
  have hagree : ∀ n, ∀ a : Atom, level a.relation < n → (a ∈ M ↔ a ∈ N) := by
    intro n
    induction n with
    | zero => exact fun a ha ↦ absurd ha (Nat.not_lt_zero _)
    | succ n ih =>
      intro a ha
      have hle := Nat.le_of_lt_succ ha
      exact ⟨fun h ↦ subset_upTo hlevel hM hN ih h hle,
        fun h ↦ subset_upTo hlevel hN hM (fun b hb ↦ (ih b hb).symm) h hle⟩
  ext a
  exact hagree (level a.relation + 1) a (Nat.lt_succ_self _)

end IsAnswerSet
end RightOfWay
