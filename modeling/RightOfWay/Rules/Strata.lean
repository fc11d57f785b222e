import RightOfWay.Rules.Rule

/-!
# Strata

Negation asks for what cannot be derived, so a relation must be complete before a rule negates it.
Levels arrange this: the head of a rule stands at least as high as the relations that its body uses
and above those that it negates, and rules are evaluated from the lowest level up.

* `Levels` gives each relation a level, at first zero.
* `Levels.raise` lifts the head of a rule to the level that its body requires.  A head that climbs
  past the number of relations shows that some relation depends on its own negation; without that
  no level so high is ever needed.
* `Levels.settle` raises heads until every rule is settled.  Each round lifts a head and levels are
  bounded, so this comes to an end.
-/

set_option autoImplicit false

namespace RightOfWay

/-- The relation that a literal looks up, if it is not a comparison. -/
def Literal.relation? : Literal → Option Relation
  | pos p => some p.relation
  | neg p => some p.relation
  | cmp .. => none

/-- The relation that a rule derives. -/
def Rule.headRelation? (r : Rule) : Option Relation := r.head.map Pattern.relation

/-- The relations that rules derive or look up. -/
def relationsOf (rules : List Rule) : Std.ExtTreeSet Relation :=
  Std.ExtTreeSet.ofList <| rules.flatMap fun r ↦
    r.headRelation?.toList ++ r.body.filterMap Literal.relation?

/-- A level for each relation; those not listed are at level zero. -/
abbrev Levels := Std.ExtTreeMap Relation Nat

namespace Levels

/-- The level of a relation. -/
def level (ls : Levels) (r : Relation) : Nat := ls.getD r 0

theorem level_insert (ls : Levels) (r s : Relation) (n : Nat) :
    level (ls.insert r n) s = if r = s then n else ls.level s := by
  simp [level, Std.ExtTreeMap.getD_insert, Std.LawfulEqCmp.compare_eq_iff_eq]

/-- The level that a literal requires of the head. -/
def ofLiteral (ls : Levels) : Literal → Nat
  | .pos p => ls.level p.relation
  | .neg p => ls.level p.relation + 1
  | .cmp .. => 0

/-- The level that a rule requires of its head, which is never below the one it has. -/
def required (ls : Levels) (r : Rule) (head : Pattern) : Nat :=
  r.body.foldl (fun level l ↦ max level (ls.ofLiteral l)) (ls.level head.relation)

/-- A rule is settled if its head has the level that it requires. -/
def settled (ls : Levels) (r : Rule) : Bool :=
  match r.head with
  | none => true
  | some head => ls.required r head == ls.level head.relation

/-- The levels with the head of a rule lifted to the level that it requires, unless that is above
the limit: then the predicate of the head is blamed. -/
def raise (limit : Nat) (ls : Levels) (r : Rule) : Except String Levels :=
  match r.head with
  | none => .ok ls
  | some head =>
    if limit < ls.required r head then .error head.predicate
    else .ok (ls.insert head.relation (ls.required r head))

/-- One round over all rules, in order. -/
def round (limit : Nat) : List Rule → Levels → Except String Levels
  | [], ls => .ok ls
  | r :: rules, ls =>
    match ls.raise limit r with
    | .error predicate => .error predicate
    | .ok ls => round limit rules ls

/-! ## Rounds come to an end -/

/-- Every level of the first is at most that of the second. -/
def Below (ls ms : Levels) : Prop := ∀ r, ls.level r ≤ ms.level r

theorem Below.refl (ls : Levels) : ls.Below ls := fun _ ↦ Nat.le_refl _

theorem Below.trans {ls ms ns : Levels} (h : ls.Below ms) (h' : ms.Below ns) : ls.Below ns :=
  fun r ↦ Nat.le_trans (h r) (h' r)

theorem Below.ofLiteral {ls ms : Levels} (h : ls.Below ms) (l : Literal) :
    ls.ofLiteral l ≤ ms.ofLiteral l := by
  cases l <;> simp [Levels.ofLiteral, h _]

theorem le_foldl_max (f : Literal → Nat) (body : List Literal) (n : Nat) :
    n ≤ body.foldl (fun level l ↦ max level (f l)) n := by
  induction body generalizing n with
  | nil => exact Nat.le_refl n
  | cons l body ih => exact Nat.le_trans (Nat.le_max_left n (f l)) (ih _)

theorem foldl_max_le_foldl_max {f g : Literal → Nat} (h : ∀ l, f l ≤ g l) (body : List Literal)
    {m n : Nat} (hmn : m ≤ n) :
    body.foldl (fun level l ↦ max level (f l)) m ≤
      body.foldl (fun level l ↦ max level (g l)) n := by
  induction body generalizing m n with
  | nil => exact hmn
  | cons l body ih =>
    have := h l
    exact ih (by dsimp only; omega)

theorem level_le_required (ls : Levels) (r : Rule) (head : Pattern) :
    ls.level head.relation ≤ ls.required r head := le_foldl_max _ _ _

theorem Below.required {ls ms : Levels} (h : ls.Below ms) (r : Rule) (head : Pattern) :
    ls.required r head ≤ ms.required r head :=
  foldl_max_le_foldl_max h.ofLiteral _ (h _)

theorem below_of_raise {limit : Nat} {ls ms : Levels} {r : Rule} (h : ls.raise limit r = .ok ms) :
    ls.Below ms := by
  unfold raise at h
  split at h
  · cases h
    exact Below.refl ls
  · split at h <;> cases h
    intro s
    rw [level_insert]
    split
    · rename_i hs
      subst hs
      exact level_le_required _ _ _
    · exact Nat.le_refl _

theorem below_of_round {limit : Nat} {rules : List Rule} {ls ms : Levels}
    (h : round limit rules ls = .ok ms) : ls.Below ms := by
  induction rules generalizing ls with
  | nil => cases h; exact Below.refl _
  | cons r rules ih =>
    unfold round at h
    split at h
    · cases h
    · rename_i hr
      exact (below_of_raise hr).trans (ih h)

/-- A round lifts the head of a rule that is not settled, and not past the limit. -/
theorem required_le_of_round {limit : Nat} {rules : List Rule} {ls ms : Levels}
    (h : round limit rules ls = .ok ms) {r : Rule} (hr : r ∈ rules) {head : Pattern}
    (hhead : r.head = some head) :
    ls.required r head ≤ ms.level head.relation := by
  induction rules generalizing ls with
  | nil => cases hr
  | cons s rules ih =>
    unfold round at h
    split at h
    · cases h
    · rename_i ls' hs
      rcases List.mem_cons.1 hr with rfl | hr
      · refine Nat.le_trans ?_ (below_of_round h _)
        unfold raise at hs
        rw [hhead] at hs
        dsimp only at hs
        split at hs <;> cases hs
        simp [level_insert]
      · exact Nat.le_trans ((below_of_raise hs).required r head) (ih h hr)

/-- What is left for the head of a rule to climb. -/
def roomOf (limit : Nat) (ls : Levels) (r : Rule) : Nat :=
  match r.head with
  | none => 0
  | some head => limit + 1 - ls.level head.relation

/-- What is left for the heads of the rules to climb. -/
def room (limit : Nat) (ls : Levels) : List Rule → Nat
  | [] => 0
  | r :: rules => ls.roomOf limit r + ls.room limit rules

theorem Below.roomOf_le {ls ms : Levels} (h : ls.Below ms) (limit : Nat) (r : Rule) :
    ms.roomOf limit r ≤ ls.roomOf limit r := by
  unfold roomOf
  cases r.head with
  | none => exact Nat.le_refl _
  | some head => exact Nat.sub_le_sub_left (h head.relation) _

theorem Below.room_le {ls ms : Levels} (h : ls.Below ms) (limit : Nat) (rules : List Rule) :
    ms.room limit rules ≤ ls.room limit rules := by
  induction rules with
  | nil => exact Nat.le_refl _
  | cons r rules ih => exact Nat.add_le_add (h.roomOf_le limit r) ih

theorem Below.room_lt {ls ms : Levels} (h : ls.Below ms) {limit : Nat} {rules : List Rule}
    {r : Rule} (hr : r ∈ rules) (hlt : ms.roomOf limit r < ls.roomOf limit r) :
    ms.room limit rules < ls.room limit rules := by
  induction rules with
  | nil => cases hr
  | cons s rules ih =>
    rcases List.mem_cons.1 hr with rfl | hr
    · exact Nat.add_lt_add_of_lt_of_le hlt (h.room_le limit rules)
    · exact Nat.add_lt_add_of_le_of_lt (h.roomOf_le limit s) (ih hr)

/-- A round that lifts a head takes some of the room. -/
theorem room_lt_of_round {limit : Nat} {rules : List Rule} {ls ms : Levels}
    (h : round limit rules ls = .ok ms) {r : Rule} (hr : r ∈ rules)
    (hsettled : ls.settled r = false)
    (hbound : ∀ s, ls.level s ≤ limit) : ms.room limit rules < ls.room limit rules := by
  refine (below_of_round h).room_lt hr ?_
  unfold settled at hsettled
  split at hsettled
  · cases hsettled
  · rename_i head hhead
    have hne : ls.required r head ≠ ls.level head.relation := by simpa using hsettled
    have := level_le_required ls r head
    have := required_le_of_round h hr hhead
    have := hbound head.relation
    simp only [roomOf, hhead]
    omega

theorem level_le_of_raise {limit : Nat} {ls ms : Levels} {r : Rule} (h : ls.raise limit r = .ok ms)
    (hbound : ∀ s, ls.level s ≤ limit) : ∀ s, ms.level s ≤ limit := by
  unfold raise at h
  split at h
  · cases h
    exact hbound
  · split at h <;> cases h
    intro s
    rw [level_insert]
    split
    · omega
    · exact hbound s

theorem level_le_of_round {limit : Nat} {rules : List Rule} {ls ms : Levels}
    (h : round limit rules ls = .ok ms) (hbound : ∀ s, ls.level s ≤ limit) :
    ∀ s, ms.level s ≤ limit := by
  induction rules generalizing ls with
  | nil => cases h; exact hbound
  | cons r rules ih =>
    unfold round at h
    split at h
    · cases h
    · rename_i hr
      exact ih h (level_le_of_raise hr hbound)

/-- Rounds are run until every rule is settled. -/
def settle (limit : Nat) (rules : List Rule) (ls : Levels) (hbound : ∀ r, ls.level r ≤ limit) :
    Except String Levels :=
  if _h : rules.all ls.settled then .ok ls
  else
    match _hr : round limit rules ls with
    | .error predicate => .error predicate
    | .ok ms => settle limit rules ms (level_le_of_round _hr hbound)
termination_by ls.room limit rules
decreasing_by
  simp only [List.all_eq_true, Classical.not_forall] at _h
  obtain ⟨r, hr, hsettled⟩ := _h
  exact room_lt_of_round _hr hr (by simpa using hsettled) hbound

theorem level_empty (r : Relation) : level ∅ r = 0 := by simp [level]

end Levels

/-- The level of each relation, or the predicate that is blamed when there are none. -/
def stratify (rules : List Rule) : Except String Levels :=
  Levels.settle (relationsOf rules).size rules ∅ fun r ↦ by simp [Levels.level_empty]

end RightOfWay
