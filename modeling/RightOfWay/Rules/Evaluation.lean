import RightOfWay.Rules.Join
import RightOfWay.Rules.Strata

/-!
# Evaluating a program

Rules are evaluated from the facts upwards, stratum by stratum.

* `consequences` lists what the rules derive from a database in one step and is not there yet.
* `saturate` adds consequences round by round until there are none.  Every round adds at least one
  tuple, and more tuples than the budget allows end the evaluation, so that it comes to an end.
* `evaluate` saturates each stratum in turn and then looks for a constraint whose body holds.
-/

set_option autoImplicit false

namespace RightOfWay

/-- How an evaluation ends. -/
inductive Evaluation where
  /-- The atoms of the only answer. -/
  | model (atoms : List Atom)
  /-- The body of the constraint on the line holds. -/
  | constraintViolated (line : Nat)
  /-- The predicate climbed past every level. -/
  | notStratifiable (predicate : String)
  /-- More tuples can be derived than the budget allows. -/
  | budgetExceeded
  deriving DecidableEq

/-- A derived tuple and its relation. -/
abbrev Derived := Relation × Tuple

/-- What a rule derives in one step. -/
def Rule.consequences (db : Database) (r : Rule) : List Derived :=
  match r.head with
  | none => []
  | some head =>
    ((r.solutions db).filterMap (ground head)).filterMap fun t ↦
      if db.contains head.relation t then none else some (head.relation, t)

/-- What the rules derive in one step that the database does not contain. -/
def consequences (db : Database) (rules : List Rule) : List Derived :=
  rules.flatMap (Rule.consequences db)

theorem not_contains_of_mem_consequences {db : Database} {rules : List Rule} {d : Derived}
    (h : d ∈ consequences db rules) : db.contains d.1 d.2 = false := by
  simp only [consequences, List.mem_flatMap] at h
  obtain ⟨r, _, h⟩ := h
  unfold Rule.consequences at h
  split at h
  · cases h
  · obtain ⟨t, _, ht⟩ := List.mem_filterMap.1 h
    split at ht <;> cases ht
    rename_i hc
    simpa using hc

/-- The database with all these tuples, unless it outgrows the budget on the way. -/
def absorb (budget : Nat) : List Derived → Database → Option Database
  | [], db => some db
  | (r, t) :: ds, db =>
    let db := db.insert r t
    if budget < db.size then none else absorb budget ds db

theorem size_le_of_absorb {budget : Nat} {ds : List Derived} {db db' : Database}
    (h : absorb budget ds db = some db') : db.size ≤ db'.size := by
  induction ds generalizing db with
  | nil => cases h; exact Nat.le_refl _
  | cons d ds ih =>
    simp only [absorb] at h
    split at h
    · cases h
    · refine Nat.le_trans ?_ (ih h)
      rw [Database.size_insert]
      split <;> omega

theorem size_le_budget_of_absorb {budget : Nat} {ds : List Derived} {db db' : Database}
    (h : absorb budget ds db = some db') (hds : ds ≠ []) : db'.size ≤ budget := by
  induction ds generalizing db with
  | nil => exact absurd rfl hds
  | cons d ds ih =>
    simp only [absorb] at h
    split at h
    · cases h
    · cases ds with
      | nil => cases h; omega
      | cons => exact ih h (by simp)

theorem size_lt_of_absorb {budget : Nat} {d : Derived} {ds : List Derived} {db db' : Database}
    (h : absorb budget (d :: ds) db = some db') (hd : db.contains d.1 d.2 = false) :
    db.size < db'.size := by
  simp only [absorb] at h
  split at h
  · cases h
  · refine Nat.lt_of_lt_of_le ?_ (size_le_of_absorb h)
    simp [Database.size_insert, hd]

/-- The database with everything that the rules derive from it, unless it outgrows the budget. -/
def saturate (budget : Nat) (rules : List Rule) (db : Database) : Option Database :=
  match _hc : consequences db rules with
  | [] => some db
  | d :: ds =>
    match _ha : absorb budget (d :: ds) db with
    | none => none
    | some db' => saturate budget rules db'
termination_by budget - db.size
decreasing_by
  have hd : db.contains d.1 d.2 = false :=
    @not_contains_of_mem_consequences db rules d (by rw [_hc]; simp)
  have := size_lt_of_absorb _ha hd
  have := size_le_budget_of_absorb _ha (by simp)
  omega

/-- The rules whose heads are at the given level. -/
def stratum (levels : Levels) (rules : List Rule) (level : Nat) : List Rule :=
  rules.filter fun r ↦
    match r.head with
    | none => false
    | some head => levels.level head.relation == level

/-- The database saturated stratum by stratum, lowest first. -/
def saturateStrata (budget : Nat) (levels : Levels) (rules : List Rule) :
    List Nat → Database → Option Database
  | [], db => some db
  | level :: rest, db =>
    match saturate budget (stratum levels rules level) db with
    | none => none
    | some db => saturateStrata budget levels rules rest db

/-- Whether the body of a constraint holds. -/
def Rule.violated (db : Database) (r : Rule) : Bool := r.head.isNone && !(r.solutions db).isEmpty

/-- The outcome of a program, with at most as many derived tuples as the budget allows. -/
def evaluate (budget : Nat) (rules : List Rule) : Evaluation :=
  match stratify rules with
  | .error predicate => .notStratifiable predicate
  | .ok levels =>
    let all := List.range ((relationsOf rules).size + 1)
    match saturateStrata budget levels rules all .empty with
    | none => .budgetExceeded
    | some db =>
      match rules.find? (Rule.violated db) with
      | some constraint => .constraintViolated constraint.line
      | none => .model db.atoms

end RightOfWay
