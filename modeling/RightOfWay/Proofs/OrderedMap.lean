import Mathlib.Data.List.Sort
import Std.Data.ExtTreeMap
import Std.Data.ExtTreeSet

/-!
# Ordered maps and sets

What an ordered map lists is decided by its entries, and not by the way in which they got there.

* `mem_values` says which values it lists, and `pairwise_values` in which order.
* `forall_getElem?_insert` says what holds of the entries after one more.
* `map_values_congr` says that maps with entries that look the same list values that look the same,
  and `eq_of_ordered` that the members of an ordered list determine it.
* `modify_eq_insert`, `insert_insert` and `insertMany_toList` say when different ways of writing
  entries come to the same.
* `ofList_congr` says that the members of a list determine their set, and `toList_ofList` that the
  set of an ordered list lists it again.
-/

set_option autoImplicit false

namespace RightOfWay

variable {α β γ : Type} {cmp : α → α → Ordering} [Std.TransCmp cmp]

/-- The values of an ordered map are the second parts of its entries. -/
theorem values_eq_map_toList (m : Std.ExtTreeMap α β cmp) : m.values = m.toList.map Prod.snd := by
  obtain ⟨⟨q⟩⟩ := m
  induction q using Quotient.ind with
  | _ m =>
    show m.inner.values = (Std.DTreeMap.Internal.Impl.Const.toList m.inner).map Prod.snd
    rw [Std.DTreeMap.Internal.Impl.values_eq_map_snd,
      Std.DTreeMap.Internal.Impl.Const.toList_eq_toListModel_map, List.map_map]
    rfl

theorem length_values (m : Std.ExtTreeMap α β cmp) : m.values.length = m.size := by
  rw [values_eq_map_toList, List.length_map, Std.ExtTreeMap.length_toList]

theorem values_map (m : Std.ExtTreeMap α β cmp) (f : β → γ) :
    (m.map fun _ ↦ f).values = m.values.map f := by
  rw [values_eq_map_toList, Std.ExtTreeMap.toList_map, values_eq_map_toList, List.map_map,
    List.map_map]
  rfl

/-- Ordered lists with the same members are equal. -/
theorem eq_of_ordered {as bs : List α} (has : as.Pairwise fun a b ↦ cmp a b = .lt)
    (hbs : bs.Pairwise fun a b ↦ cmp a b = .lt) (h : ∀ a, a ∈ as ↔ a ∈ bs) : as = bs := by
  have : Std.Irrefl fun a b : α ↦ cmp a b = .lt := ⟨fun a ↦ by simp [Std.ReflCmp.compare_self]⟩
  have : Std.Antisymm fun a b : α ↦ cmp a b = .lt :=
    ⟨fun a b hab hba ↦ by simp [Std.OrientedCmp.gt_of_lt hab] at hba⟩
  exact has.eq_of_mem_iff hbs h

variable [Std.LawfulEqCmp cmp]

theorem mem_values {m : Std.ExtTreeMap α β cmp} {b : β} :
    b ∈ m.values ↔ ∃ a : α, m[a]? = some b := by
  rw [values_eq_map_toList, List.mem_map]
  constructor
  · rintro ⟨⟨a, b⟩, hmem, rfl⟩
    exact ⟨a, Std.ExtTreeMap.mem_toList_iff_getElem?_eq_some.1 hmem⟩
  · rintro ⟨a, ha⟩
    exact ⟨(a, b), Std.ExtTreeMap.mem_toList_iff_getElem?_eq_some.2 ha, rfl⟩

theorem mem_values_of_keyed {m : Std.ExtTreeMap α β cmp} {key : β → α}
    (hkey : ∀ (a : α) (b : β), m[a]? = some b → key b = a) {b : β} :
    b ∈ m.values ↔ m[key b]? = some b := by
  rw [mem_values]
  refine ⟨fun ⟨a, ha⟩ ↦ ?_, fun hb ↦ ⟨_, hb⟩⟩
  rwa [hkey a b ha]

/-- Values that are kept under their own keys are listed in the order of these. -/
theorem pairwise_values {m : Std.ExtTreeMap α β cmp} {key : β → α}
    (hkey : ∀ (a : α) (b : β), m[a]? = some b → key b = a) :
    m.values.Pairwise fun b c ↦ cmp (key b) (key c) = .lt := by
  rw [values_eq_map_toList, List.pairwise_map]
  refine Std.ExtTreeMap.ordered_keys_toList.imp_of_mem fun {p q} hp hq hlt ↦ ?_
  rw [hkey p.1 p.2 (Std.ExtTreeMap.mem_toList_iff_getElem?_eq_some.1 hp),
    hkey q.1 q.2 (Std.ExtTreeMap.mem_toList_iff_getElem?_eq_some.1 hq)]
  exact hlt

/-- What holds of all entries and of a new one holds of all entries with the new one. -/
theorem forall_getElem?_insert {m : Std.ExtTreeMap α β cmp} {P : α → β → Prop} {a : α} {b : β}
    (hm : ∀ (k : α) (c : β), m[k]? = some c → P k c) (hb : P a b) :
    ∀ (k : α) (c : β), (m.insert a b)[k]? = some c → P k c := by
  intro k c hc
  rw [Std.ExtTreeMap.getElem?_insert] at hc
  by_cases hk : cmp a k = .eq
  · rw [if_pos hk] at hc
    cases hc
    rwa [← Std.LawfulEqCmp.eq_of_compare hk]
  · rw [if_neg hk] at hc
    exact hm k c hc

/-- Entries stay if a new key comes in. -/
theorem getElem?_insert_of_notMem {m : Std.ExtTreeMap α β cmp} {a k : α} {b c : β} (ha : a ∉ m)
    (hk : m[k]? = some c) : (m.insert a b)[k]? = some c := by
  rw [Std.ExtTreeMap.getElem?_insert, if_neg, hk]
  intro heq
  exact ha (Std.LawfulEqCmp.eq_of_compare heq ▸ of_getElem?_eq_some hk)

/-- To change what is there is to put something else there. -/
theorem modify_eq_insert {m : Std.ExtTreeMap α β cmp} {a : α} {b : β} (hb : m[a]? = some b)
    (f : β → β) : m.modify a f = m.insert a (f b) := by
  refine Std.ExtTreeMap.ext_getElem? fun k ↦ ?_
  rw [Std.ExtTreeMap.getElem?_modify, Std.ExtTreeMap.getElem?_insert, hb, Option.map_some]

/-- To put there what is there changes nothing. -/
theorem insert_of_getElem? {m : Std.ExtTreeMap α β cmp} {a : α} {b : β} (hb : m[a]? = some b) :
    m.insert a b = m := by
  refine Std.ExtTreeMap.ext_getElem? fun k ↦ ?_
  rw [Std.ExtTreeMap.getElem?_insert]
  by_cases hk : cmp a k = .eq
  · rw [if_pos hk, ← Std.LawfulEqCmp.eq_of_compare hk, hb]
  · rw [if_neg hk]

theorem insert_insert (m : Std.ExtTreeMap α β cmp) (a : α) (b c : β) :
    (m.insert a b).insert a c = m.insert a c := by
  refine Std.ExtTreeMap.ext_getElem? fun k ↦ ?_
  simp only [Std.ExtTreeMap.getElem?_insert]
  split
  · rfl
  · rfl

/-- Maps whose entries look the same list values that look the same. -/
theorem map_values_congr {m n : Std.ExtTreeMap α β cmp} {f : β → γ}
    (h : ∀ k : α, m[k]?.map f = n[k]?.map f) : m.values.map f = n.values.map f := by
  rw [← values_map, ← values_map]
  refine congrArg _ (Std.ExtTreeMap.ext_getElem? fun k ↦ ?_)
  rw [Std.ExtTreeMap.getElem?_map, Std.ExtTreeMap.getElem?_map, h]

/-- To put something else in the place of every value is to map the values. -/
theorem insertMany_toList [BEq α] [LawfulBEq α] (m : Std.ExtTreeMap α β cmp) (f : β → β) :
    m.insertMany (m.toList.map fun p ↦ (p.1, f p.2)) = m.map fun _ ↦ f := by
  refine Std.ExtTreeMap.ext_getElem? fun k ↦ ?_
  rw [Std.ExtTreeMap.getElem?_map]
  cases hk : m[k]? with
  | none =>
    have hkeys : (m.toList.map fun p ↦ (p.1, f p.2)).map Prod.fst = m.keys := by
      rw [List.map_map, ← Std.ExtTreeMap.map_fst_toList_eq_keys]
      rfl
    rw [Std.ExtTreeMap.getElem?_insertMany_list_of_contains_eq_false, hk, Option.map_none]
    simpa [hkeys] using hk
  | some b =>
    refine Std.ExtTreeMap.getElem?_insertMany_list_of_mem Std.ReflCmp.compare_self
      (List.pairwise_map.2 Std.ExtTreeMap.distinct_keys_toList) (List.mem_map.2 ⟨(k, b), ?_, rfl⟩)
    exact Std.ExtTreeMap.mem_toList_iff_getElem?_eq_some.2 hk

section Sets

variable [BEq α] [LawfulBEq α]

/-- Lists with the same members make the same set. -/
theorem ofList_congr {as bs : List α} (h : ∀ a, a ∈ as ↔ a ∈ bs) :
    Std.ExtTreeSet.ofList as cmp = Std.ExtTreeSet.ofList bs cmp :=
  Std.ExtTreeSet.ext_mem fun a ↦ by simp [Std.ExtTreeSet.mem_ofList, h]

theorem toList_ofList {as : List α} (h : as.Pairwise fun a b ↦ cmp a b = .lt) :
    (Std.ExtTreeSet.ofList as cmp).toList = as :=
  eq_of_ordered Std.ExtTreeSet.ordered_toList h fun a ↦ by simp [Std.ExtTreeSet.mem_ofList]

end Sets

end RightOfWay
