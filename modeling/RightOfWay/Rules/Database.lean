import RightOfWay.Rules.Rule

/-!
# The facts derived so far

A `Database` holds, for each relation, the set of its tuples in order, and counts them all.  Three
equations say everything about it: what is in an empty one (`contains_empty`), what is in it after
an insertion (`contains_insert`), and what is listed (`mem_tuples`).
-/

set_option autoImplicit false

namespace RightOfWay

/-- The terms of a derived atom. -/
abbrev Tuple := List Term

/-- The tuples derived so far. -/
structure Database where
  relations : Std.ExtTreeMap Relation (Std.ExtTreeSet Tuple)
  size : Nat

namespace Database

/-- Nothing has been derived. -/
def empty : Database := ⟨∅, 0⟩

/-- The tuples of a relation, in order. -/
def tuples (db : Database) (r : Relation) : List Tuple := (db.relations.getD r ∅).toList

/-- Whether the tuple has been derived for the relation. -/
def contains (db : Database) (r : Relation) (t : Tuple) : Bool := (db.relations.getD r ∅).contains t

/-- The database with one more tuple. -/
def insert (db : Database) (r : Relation) (t : Tuple) : Database :=
  if db.contains r t then db
  else ⟨db.relations.insert r ((db.relations.getD r ∅).insert t), db.size + 1⟩

/-- All atoms, by predicate, number of terms and terms. -/
def atoms (db : Database) : List Atom :=
  db.relations.toList.flatMap fun (r, tuples) ↦ tuples.toList.map fun t ↦ ⟨r.name, t⟩

@[simp] theorem contains_empty (r : Relation) (t : Tuple) : empty.contains r t = false := by
  simp [contains, empty]

theorem contains_insert (db : Database) (r s : Relation) (t u : Tuple) :
    (db.insert r t).contains s u = (decide (r = s ∧ t = u) || db.contains s u) := by
  unfold insert
  split
  · rename_i h
    by_cases heq : r = s ∧ t = u
    · obtain ⟨rfl, rfl⟩ := heq
      simp [h]
    · simp [heq]
  · simp only [contains, Std.ExtTreeMap.getD_insert, Std.LawfulEqCmp.compare_eq_iff_eq]
    by_cases hr : r = s
    · subst hr
      simp [Std.ExtTreeSet.contains_insert, Bool.beq_eq_decide_eq]
    · simp [hr]

theorem mem_tuples {db : Database} {r : Relation} {t : Tuple} :
    t ∈ db.tuples r ↔ db.contains r t = true := by
  simp [tuples, contains]

/-- An insertion counts only what is new. -/
theorem size_insert (db : Database) (r : Relation) (t : Tuple) :
    (db.insert r t).size = if db.contains r t then db.size else db.size + 1 := by
  unfold insert
  split <;> rfl

end Database
end RightOfWay
