import Mathlib.Data.List.Destutter
import RightOfWay.Logic.Model
import RightOfWay.Proofs.OrderedMap

/-!
# Sets as lists

The members of a set can be listed without any set.  Sort the elements, and of equal neighbours keep
one: that is the list of members (`toList_ofList_eq_sortedMembers`).  So it is with atoms and the
model that they make (`Model.toList_ofAtoms`).  To look an atom up, compare it with the one in the
middle and go on in one half: that finds the members and nothing else (`findsByHalves_iff`).

Both rest on two things about the order.  It is total, so that sorting brings equal elements
together and one half can be left out of a search.  And only an element itself compares as equal to
it, so that what is dropped beside an equal neighbour, or found in the middle, is that very element.
-/

set_option autoImplicit false

namespace RightOfWay

section Order

variable {α : Type} [Ord α]

/-! ## Increasing lists -/

/-- Every element of the list comes before those behind it. -/
def Increasing (as : List α) : Prop := as.Pairwise fun a b ↦ compare a b = .lt

theorem Increasing.filter {as : List α} (h : Increasing as) (p : α → Bool) :
    Increasing (as.filter p) := List.Pairwise.filter p h

/-- Whether the first element may stand in front of the second one. -/
def mayPrecede (a b : α) : Bool := (compare a b).isLE

variable [Std.TransOrd α]

theorem mayPrecede_trans {a b c : α} (hab : mayPrecede a b = true)
    (hbc : mayPrecede b c = true) : mayPrecede a c = true :=
  @Std.TransCmp.isLE_trans α compare _ a b c hab hbc

theorem mayPrecede_total (a b : α) : (mayPrecede a b || mayPrecede b a) = true := by
  rw [Bool.or_eq_true, mayPrecede, mayPrecede]
  cases h : compare a b with
  | lt => exact .inl rfl
  | eq => exact .inl rfl
  | gt =>
    rw [Std.OrientedCmp.lt_of_gt h]
    exact .inr rfl

theorem pairwise_mayPrecede (as : List α) :
    (as.mergeSort mayPrecede).Pairwise fun a b ↦ mayPrecede a b = true :=
  @List.pairwise_mergeSort α mayPrecede (fun _ _ _ ↦ mayPrecede_trans) mayPrecede_total as

variable [Std.LawfulEqOrd α]

theorem mayPrecede_antisymm {a b : α} (hab : mayPrecede a b = true)
    (hba : mayPrecede b a = true) : a = b :=
  Std.LawfulEqCmp.eq_of_compare (Std.OrientedCmp.isLE_antisymm hab hba)

/-! ## Sorting -/

variable [DecidableEq α] {as : List α} {a : α}

/-- The elements in order, with one left of neighbours that are equal. -/
def sortedMembers (as : List α) : List α := (as.mergeSort mayPrecede).destutter (· ≠ ·)

/-- In a sorted list elements that are equal are neighbours. -/
theorem sortedMembers_eq_dedup (as : List α) :
    sortedMembers as = (as.mergeSort mayPrecede).dedup := by
  have : Std.Antisymm fun a b : α ↦ mayPrecede a b = true := ⟨fun _ _ ↦ mayPrecede_antisymm⟩
  exact (pairwise_mayPrecede as).destutter_eq_dedup

theorem mem_sortedMembers : a ∈ sortedMembers as ↔ a ∈ as := by
  rw [sortedMembers_eq_dedup, List.mem_dedup, List.mem_mergeSort]

theorem increasing_sortedMembers (as : List α) : Increasing (sortedMembers as) := by
  rw [sortedMembers_eq_dedup]
  have hsorted := (pairwise_mayPrecede as).sublist (List.dedup_sublist _)
  refine (hsorted.and (List.nodup_dedup _)).imp fun {a b} ⟨hle, hne⟩ ↦ ?_
  rcases Ordering.isLE_iff_eq_lt_or_eq_eq.1 hle with hlt | heq
  · exact hlt
  · exact absurd (Std.LawfulEqCmp.eq_of_compare heq) hne

/-- Sorting leaves every member of a list, once. -/
theorem length_sortedMembers (as : List α) : (sortedMembers as).length = as.dedup.length := by
  rw [sortedMembers_eq_dedup]
  exact (as.mergeSort_perm mayPrecede).dedup.length_eq

/-- **A set lists its members sorted**, each of them once. -/
theorem toList_ofList_eq_sortedMembers (as : List α) :
    (Std.ExtTreeSet.ofList as).toList = sortedMembers as :=
  eq_of_ordered Std.ExtTreeSet.ordered_toList (increasing_sortedMembers as) fun a ↦ by
    rw [Std.ExtTreeSet.mem_toList, Std.ExtTreeSet.mem_ofList, List.contains_iff_mem,
      mem_sortedMembers]

end Order

/-! ## Models -/

namespace Model

variable {atoms others : List Atom}

theorem increasing_toList (m : Model) : Increasing m.toList := m.ordered_toList

/-- The members of a model are its atoms sorted. -/
theorem toList_ofAtoms (atoms : List Atom) : (ofAtoms atoms).toList = sortedMembers atoms :=
  toList_ofList_eq_sortedMembers atoms

/-- Lists make the same model exactly if they have the same members. -/
theorem ofAtoms_eq_iff : ofAtoms atoms = ofAtoms others ↔ ∀ a, a ∈ atoms ↔ a ∈ others := by
  refine ⟨fun h a ↦ ?_, ofList_congr⟩
  rw [← mem_ofAtoms, h, mem_ofAtoms]

/-- A list without repetitions becomes a model without a loss. -/
theorem perm_toList_ofAtoms (h : atoms.Nodup) : (ofAtoms atoms).toList.Perm atoms := by
  rw [toList_ofAtoms, sortedMembers_eq_dedup]
  have hperm := atoms.mergeSort_perm mayPrecede
  rw [List.dedup_eq_self.2 (hperm.nodup_iff.2 h)]
  exact hperm

end Model

/-! ## Looking up -/

/-- Whether an increasing list has the atom.  It is compared with the atom in the middle, and unless
that is the one, the search goes on in front of it or behind it. -/
def findsByHalves (a : Atom) (as : List Atom) : Bool :=
  match _h : as.drop (as.length / 2) with
  | [] => false
  | middle :: behind =>
    match compare a middle with
    | .lt => findsByHalves a (as.take (as.length / 2))
    | .eq => true
    | .gt => findsByHalves a behind
termination_by as.length
decreasing_by
  all_goals
    have hlength := congrArg List.length _h
    simp only [List.length_drop, List.length_cons] at hlength
  · rw [List.length_take]
    omega
  · omega

section Halves

variable {a middle : Atom} {front behind : List Atom}

/-- What is before the middle can only stand in front of it. -/
theorem mem_of_lt_middle (h : Increasing (front ++ middle :: behind))
    (hlt : compare a middle = .lt) : a ∈ front ++ middle :: behind ↔ a ∈ front := by
  obtain ⟨-, hback, -⟩ := List.pairwise_append.1 h
  rw [List.mem_append, List.mem_cons, or_iff_left]
  rintro (rfl | hbehind)
  · simp at hlt
  · have hgt := (List.pairwise_cons.1 hback).1 a hbehind
    rw [Std.OrientedCmp.gt_of_lt hlt] at hgt
    cases hgt

/-- What comes after the middle can only stand behind it. -/
theorem mem_of_gt_middle (h : Increasing (front ++ middle :: behind))
    (hgt : compare a middle = .gt) : a ∈ front ++ middle :: behind ↔ a ∈ behind := by
  obtain ⟨-, -, hfront⟩ := List.pairwise_append.1 h
  rw [List.mem_append, List.mem_cons, or_iff_right, or_iff_right]
  · rintro rfl
    simp at hgt
  · intro hmem
    rw [hfront a hmem middle List.mem_cons_self] at hgt
    cases hgt

end Halves

theorem findsByHalves_iff {a : Atom} {as : List Atom} (h : Increasing as) :
    findsByHalves a as = true ↔ a ∈ as := by
  fun_induction findsByHalves a as with
  | case1 as hnil =>
    have hlength := congrArg List.length hnil
    rw [List.length_drop, List.length_nil] at hlength
    rw [List.length_eq_zero_iff.1 (by omega : as.length = 0)]
    simp
  | case2 as middle behind hmiddle hlt ih =>
    have hsplit : as = as.take (as.length / 2) ++ middle :: behind := by
      rw [← hmiddle, List.take_append_drop]
    have hfront := mem_of_lt_middle (hsplit ▸ h) hlt
    rw [← hsplit] at hfront
    exact (ih (h.sublist (List.take_sublist _ _))).trans hfront.symm
  | case3 as middle behind hmiddle heq =>
    have hmem : middle ∈ as.drop (as.length / 2) := hmiddle ▸ List.mem_cons_self
    rw [Std.LawfulEqCmp.eq_of_compare heq]
    exact iff_of_true rfl (List.mem_of_mem_drop hmem)
  | case4 as middle behind hmiddle hgt ih =>
    have hsplit : as = as.take (as.length / 2) ++ middle :: behind := by
      rw [← hmiddle, List.take_append_drop]
    have hbehind := mem_of_gt_middle (hsplit ▸ h) hgt
    rw [← hsplit] at hbehind
    have hsublist : behind.Sublist as := by
      rw [hsplit]
      exact (List.sublist_cons_self _ _).trans (List.sublist_append_right _ _)
    exact (ih (h.sublist hsublist)).trans hbehind.symm

end RightOfWay
