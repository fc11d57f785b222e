import RightOfWay.Logic.Atom

/-!
# Models

A `Model` is a finite set of atoms: an answer to a program.  It is kept in order, so that listing it
is deterministic, and two models with the same members are the same model.  Models themselves are
ordered by their lists of members.
-/

set_option autoImplicit false

namespace RightOfWay

/-- A finite set of atoms. -/
abbrev Model := Std.ExtTreeSet Atom

namespace Model

/-- The model with these members. -/
def ofAtoms (atoms : List Atom) : Model := Std.ExtTreeSet.ofList atoms

@[simp] theorem mem_ofAtoms {atoms : List Atom} {a : Atom} : a ∈ ofAtoms atoms ↔ a ∈ atoms := by
  simp [ofAtoms, Std.ExtTreeSet.mem_ofList]

/-- The members with the given predicate and number of terms, in order. -/
def withPredicate (m : Model) (predicate : String) (arity : Nat) : List Atom :=
  m.toList.filter fun a ↦ a.predicate == predicate && a.arity == arity

theorem mem_withPredicate {m : Model} {predicate : String} {arity : Nat} {a : Atom} :
    a ∈ m.withPredicate predicate arity ↔ a ∈ m ∧ a.predicate = predicate ∧ a.arity = arity := by
  rw [withPredicate, List.mem_filter, Std.ExtTreeSet.mem_toList, Bool.and_eq_true, beq_iff_eq,
    beq_iff_eq]

/-- The members in order, separated by a space. -/
def render (m : Model) : String := " ".intercalate (m.toList.map Atom.render)

/-! ## Order -/

instance : Ord Model := ⟨compareOn Std.ExtTreeSet.toList⟩

instance : Std.TransOrd Model :=
  inferInstanceAs (Std.TransCmp (compareOn (Std.ExtTreeSet.toList (α := Atom))))

instance : Std.LawfulEqOrd Model where
  eq_of_compare {m n} h := by
    have hlist : m.toList = n.toList :=
      Std.LawfulEqOrd.eq_of_compare (α := List Atom) h
    apply Std.ExtTreeSet.ext_mem
    intro a
    rw [← Std.ExtTreeSet.mem_toList, ← Std.ExtTreeSet.mem_toList, hlist]

end Model
end RightOfWay
