import RightOfWay.Oracle.Stratified
import RightOfWay.Proofs.Logic.Listing
import RightOfWay.Proofs.Rules.Meaning

/-!
# From a database to a model

A database lists its atoms by predicate, by the number of terms and then by the terms.  A model has
them in another order, in which the number of terms does not count: `p(b)` comes before `p(a, a)` in
a database and after it in a model.  Still the model has all of them and no others
(`Database.perm_toList_atoms`), and under each predicate with each number of terms it lists what the
database has there, in the same order (`Database.withPredicate_ofAtoms`).

That is so because every tuple is kept under its own length.  If one were not, two tuples of the
database could be the same atom.
-/

set_option autoImplicit false

namespace RightOfWay

/-- The order in which a database lists its atoms: by predicate, by the number of terms, and then by
the terms. -/
def compareStored : Atom → Atom → Ordering :=
  compareLex (compareOn Atom.relation) (compareOn Atom.args)

namespace Database

variable {db : Database}

theorem stored_atoms (hdb : db.WellFormed) :
    db.atoms.Pairwise fun a b ↦ compareStored a b = .lt := by
  rw [atoms_eq_map, List.pairwise_map]
  refine db.ordered_derived.imp_of_mem fun {d e} hd he hlt ↦ ?_
  rw [compareStored, compareLex, compareOn, hdb.relation_atomOf (mem_derived.1 hd),
    hdb.relation_atomOf (mem_derived.1 he)]
  exact hlt

/-- No atom is lost, and no two become one. -/
theorem perm_toList_atoms (hdb : db.WellFormed) :
    (Model.ofAtoms db.atoms).toList.Perm db.atoms := Model.perm_toList_ofAtoms (nodup_atoms hdb)

/-- The tuples of a relation as atoms. -/
def atomsOf (db : Database) (r : Relation) : List Atom := (db.tuples r).map (⟨r.name, ·⟩)

theorem increasing_atomsOf (db : Database) (r : Relation) : Increasing (db.atomsOf r) := by
  rw [Increasing, atomsOf, List.pairwise_map]
  refine (db.relations.getD r ∅).ordered_toList.imp fun {t u} hlt ↦ ?_
  show compareLex (compareOn Atom.predicate) (compareOn Atom.args) _ _ = .lt
  simp [compareLex, compareOn, hlt]

/-- **Under a predicate and a number of terms the model lists the tuples of this relation.** -/
theorem withPredicate_ofAtoms (hdb : db.WellFormed) (r : Relation) :
    (Model.ofAtoms db.atoms).withPredicate r.name r.arity = db.atomsOf r := by
  refine eq_of_ordered ((Model.increasing_toList _).filter _) (db.increasing_atomsOf r) fun a ↦ ?_
  rw [Model.mem_withPredicate, Model.mem_ofAtoms, mem_atoms hdb, atomsOf, List.mem_map]
  constructor
  · rintro ⟨ha, hname, harity⟩
    obtain rfl : a.relation = r := by
      cases r
      exact congr (congrArg Relation.mk hname) harity
    exact ⟨a.args, mem_tuples.2 ha, rfl⟩
  · rintro ⟨t, ht, rfl⟩
    have ht := mem_tuples.1 ht
    refine ⟨?_, rfl, hdb r t ht⟩
    show db.contains (atomOf (r, t)).relation t = true
    rwa [hdb.relation_atomOf ht]

end Database

/-! ## Summary -/

open Model

/-- **Models are sets.**  Take any list of atoms.  Its model lists the members of the list and no
other atoms, every one of them before the next; the list can be had by sorting the atoms and leaving
one of equal neighbours.  Another list makes the same model if and only if it has the same members.
An atom is looked up in the model, whether in the set or by halving the list, and found if and only
if it is a member.  And under a predicate with a number of terms come exactly the members that have
them, every one before the next.

The atoms that a program derives are listed in another order, by predicate, number of terms and
terms.  The model that the oracle makes of them has every one of them once, and under each predicate
and number of terms it lists the tuples of that relation. -/
theorem ofAtoms_exact :
    (∀ atoms : List Atom,
      ((ofAtoms atoms).toList = sortedMembers atoms ∧ Increasing (ofAtoms atoms).toList ∧
        ∀ a, a ∈ (ofAtoms atoms).toList ↔ a ∈ atoms) ∧
      (∀ others, ofAtoms atoms = ofAtoms others ↔ ∀ a, a ∈ atoms ↔ a ∈ others) ∧
      (∀ a, ((ofAtoms atoms).contains a = true ↔ a ∈ atoms) ∧
        findsByHalves a (ofAtoms atoms).toList = (ofAtoms atoms).contains a) ∧
      ∀ predicate arity, Increasing ((ofAtoms atoms).withPredicate predicate arity) ∧
        ∀ a, a ∈ (ofAtoms atoms).withPredicate predicate arity ↔
          a ∈ atoms ∧ a.predicate = predicate ∧ a.arity = arity) ∧
    ∀ text rules budget derived, parseProgram text = .ok rules →
      evaluate budget rules = .model derived →
        solveText budget text = .models [ofAtoms derived] ∧
        derived.Pairwise (fun a b ↦ compareStored a b = .lt) ∧
        (ofAtoms derived).toList.Perm derived ∧
        ∃ db : Database, db.atoms = derived ∧
          ∀ r, (ofAtoms derived).withPredicate r.name r.arity = db.atomsOf r := by
  refine ⟨fun atoms ↦ ⟨⟨toList_ofAtoms atoms, increasing_toList _, fun a ↦ ?_⟩,
    fun others ↦ ofAtoms_eq_iff, fun a ↦ ?_, fun predicate arity ↦ ⟨?_, fun a ↦ ?_⟩⟩,
    fun text rules budget derived hparse heval ↦ ?_⟩
  · rw [Std.ExtTreeSet.mem_toList, mem_ofAtoms]
  · have hcontains : (ofAtoms atoms).contains a = true ↔ a ∈ atoms := by
      rw [Std.ExtTreeSet.contains_iff_mem, mem_ofAtoms]
    refine ⟨hcontains, Bool.eq_iff_iff.2 ?_⟩
    rw [findsByHalves_iff (increasing_toList _), Std.ExtTreeSet.mem_toList,
      Std.ExtTreeSet.contains_iff_mem]
  · exact (increasing_toList _).filter _
  · rw [mem_withPredicate, mem_ofAtoms]
  · obtain ⟨levels, db, -, hsat, rfl⟩ := exists_database_of_evaluate heval
    have hdb : db.WellFormed :=
      (saturateStrata_grows (safe_of_parseProgram hparse) Database.wellFormed_empty hsat).1
    refine ⟨?_, Database.stored_atoms hdb, Database.perm_toList_atoms hdb, db, rfl,
      Database.withPredicate_ofAtoms hdb⟩
    rw [solveText, hparse]
    dsimp only
    rw [heval]
    rfl

/-- A program that uses one predicate with one term and with two. -/
def pairing : List Rule :=
  [⟨some ⟨"p", [.const (.symbol "b")]⟩, [], 1⟩,
    ⟨some ⟨"p", [.const (.symbol "a"), .const (.symbol "a")]⟩, [], 2⟩,
    ⟨some ⟨"p", [.var "X"]⟩, [.pos ⟨"p", [.var "X", .var "X"]⟩], 3⟩]

theorem parseProgram_pairing :
    parseProgram "p(b).\np(a, a).\np(X) :- p(X, X).\n" = .ok pairing := by
  decide +kernel

/-- The atom with two terms comes last in the database and second in the model. -/
theorem ofAtoms_exact_pairing :
    evaluate 3 pairing =
        .model [⟨"p", [.symbol "a"]⟩, ⟨"p", [.symbol "b"]⟩, ⟨"p", [.symbol "a", .symbol "a"]⟩] ∧
      ∃ m : Model, solveText 3 "p(b).\np(a, a).\np(X) :- p(X, X).\n" = .models [m] ∧
        m.toList =
          [⟨"p", [.symbol "a"]⟩, ⟨"p", [.symbol "a", .symbol "a"]⟩, ⟨"p", [.symbol "b"]⟩] ∧
        ∀ a, findsByHalves a m.toList = true ↔ a ∈ m.toList := by
  have heval : evaluate 3 pairing =
      .model [⟨"p", [.symbol "a"]⟩, ⟨"p", [.symbol "b"]⟩, ⟨"p", [.symbol "a", .symbol "a"]⟩] := by
    decide +kernel
  obtain ⟨hlists, hderived⟩ := ofAtoms_exact
  obtain ⟨hsolve, -⟩ := hderived _ _ _ _ parseProgram_pairing heval
  obtain ⟨⟨-, -, hmem⟩, -, hfind, -⟩ := hlists
    [⟨"p", [.symbol "a"]⟩, ⟨"p", [.symbol "b"]⟩, ⟨"p", [.symbol "a", .symbol "a"]⟩]
  refine ⟨heval, _, hsolve, by decide +kernel, fun a ↦ ?_⟩
  rw [(hfind a).2, (hfind a).1, hmem]

end RightOfWay
