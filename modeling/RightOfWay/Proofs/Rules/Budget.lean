import Mathlib.Data.Finset.Image
import Mathlib.Data.Set.Finite.List
import Mathlib.Data.Set.Finite.Lattice
import RightOfWay.Proofs.Rules.Saturation

/-!
# How much an evaluation derives

The budget only says when to give up.  An evaluation that gets through does so with every budget
that its final database fits into, and arrives at the same database (`saturateStrata_of_size_le`).

Every evaluation gets through with some budget (`exists_saturateStrata`).  Rules apply no functions,
so that all terms of derived atoms are constants from the heads of rules, and over these there are
finitely many atoms: the `groundSpace` of the program.

The number that a database keeps about itself is the number of its atoms
(`Database.Counts.size_eq`).
-/

set_option autoImplicit false

namespace RightOfWay

variable {budget : Nat} {rules : List Rule} {levels : Levels} {db db' : Database}

/-! ## The budget does not matter otherwise -/

theorem absorb_of_size_le {ds : List Derived} (h : absorb budget ds db = some db') {limit : Nat}
    (hsize : db'.size ≤ limit) : absorb limit ds db = some db' := by
  induction ds generalizing db with
  | nil => exact h
  | cons d ds ih =>
    simp only [absorb] at h ⊢
    split at h
    · cases h
    · rw [if_neg (Nat.not_lt.2 ((size_le_of_absorb h).trans hsize))]
      exact ih h

theorem size_le_of_saturate (h : saturate budget rules db = some db') : db.size ≤ db'.size :=
  (saturate_induction (P := fun d ↦ db.size ≤ d.size)
    (fun _ _ hle hstep ↦ hle.trans (size_le_of_absorb hstep)) h (Nat.le_refl _)).1

theorem saturate_of_size_le (h : saturate budget rules db = some db') {limit : Nat}
    (hsize : db'.size ≤ limit) : saturate limit rules db = some db' := by
  fun_induction saturate budget rules db with
  | case1 db hdone =>
    rw [saturate]
    split
    · exact h
    · rename_i hmore
      rw [hdone] at hmore
      cases hmore
  | case2 => cases h
  | case3 db d ds hds mid hmid ih =>
    -- databases only grow, so what fits in the end fits after the first step
    have hmid' := absorb_of_size_le hmid ((size_le_of_saturate h).trans hsize)
    rw [saturate]
    split
    · rename_i hdone
      rw [hds] at hdone
      cases hdone
    · rename_i d' ds' hds'
      rw [hds] at hds'
      cases hds'
      split
      · rename_i hnone
        rw [hmid'] at hnone
        cases hnone
      · rename_i mid' hsome
        rw [hmid'] at hsome
        cases hsome
        exact ih h

theorem size_le_of_saturateStrata {ks : List Nat}
    (h : saturateStrata budget levels rules ks db = some db') : db.size ≤ db'.size := by
  induction ks generalizing db with
  | nil => cases h; exact Nat.le_refl _
  | cons k ks ih =>
    obtain ⟨mid, hmid, hrest⟩ := saturateStrata_cons h
    exact (size_le_of_saturate hmid).trans (ih hrest)

/-- An evaluation that gets through arrives at the same database with every budget that this fits
into. -/
theorem saturateStrata_of_size_le {ks : List Nat}
    (h : saturateStrata budget levels rules ks db = some db') {limit : Nat}
    (hsize : db'.size ≤ limit) : saturateStrata limit levels rules ks db = some db' := by
  induction ks generalizing db with
  | nil => exact h
  | cons k ks ih =>
    obtain ⟨mid, hmid, hrest⟩ := saturateStrata_cons h
    have hmid' := saturate_of_size_le hmid ((size_le_of_saturateStrata hrest).trans hsize)
    rw [saturateStrata, hmid']
    exact ih hrest

/-! ## The number of atoms -/

namespace Database

/-- The set lists what the database contains, and the database counts it right. -/
def Counts (db : Database) (s : Finset Derived) : Prop :=
  (∀ d : Derived, d ∈ s ↔ db.contains d.1 d.2 = true) ∧ db.size = s.card

theorem counts_empty : empty.Counts ∅ := by
  refine ⟨fun d ↦ ?_, rfl⟩
  rw [contains_empty]
  simp

theorem Counts.insert {s : Finset Derived} (h : db.Counts s) (r : Relation) (t : Tuple) :
    (db.insert r t).Counts (Insert.insert (r, t) s) := by
  obtain ⟨hmem, hsize⟩ := h
  refine ⟨fun d ↦ ?_, ?_⟩
  · rw [Finset.mem_insert, contains_insert, Bool.or_eq_true, decide_eq_true_eq, hmem,
      Prod.ext_iff, eq_comm (a := d.1), eq_comm (a := d.2)]
  · rw [size_insert]
    split
    · rename_i hold
      rw [Finset.insert_eq_of_mem ((hmem (r, t)).2 hold)]
      exact hsize
    · rename_i hnew
      rw [Finset.card_insert_of_notMem fun hs ↦ hnew ((hmem (r, t)).1 hs), hsize]

/-- The relations and tuples of the database. -/
def derived (db : Database) : List Derived :=
  db.relations.toList.flatMap fun (r, tuples) ↦ tuples.toList.map (r, ·)

theorem contains_iff_exists_relation {r : Relation} {t : Tuple} :
    db.contains r t = true ↔ ∃ ts, db.relations[r]? = some ts ∧ t ∈ ts := by
  rw [contains, Std.ExtTreeMap.getD_eq_getD_getElem?]
  cases db.relations[r]? with
  | none => simp
  | some ts => simp [Std.ExtTreeSet.contains_iff_mem]

theorem mem_derived {d : Derived} : d ∈ db.derived ↔ db.contains d.1 d.2 = true := by
  rw [derived, List.mem_flatMap, contains_iff_exists_relation]
  constructor
  · rintro ⟨⟨r, ts⟩, hr, hd⟩
    obtain ⟨t, ht, rfl⟩ := List.mem_map.1 hd
    exact ⟨ts, Std.ExtTreeMap.mem_toList_iff_getElem?_eq_some.1 hr, Std.ExtTreeSet.mem_toList.1 ht⟩
  · rintro ⟨ts, hr, ht⟩
    exact ⟨(d.1, ts), Std.ExtTreeMap.mem_toList_iff_getElem?_eq_some.2 hr,
      List.mem_map.2 ⟨d.2, Std.ExtTreeSet.mem_toList.2 ht, rfl⟩⟩

/-- Derived tuples are listed by relation and then by their terms. -/
theorem ordered_derived (db : Database) : db.derived.Pairwise fun d e ↦
    compareLex (compareOn Prod.fst) (compareOn Prod.snd) d e = .lt := by
  rw [derived, List.pairwise_flatMap]
  constructor
  · rintro ⟨r, ts⟩ -
    rw [List.pairwise_map]
    refine ts.ordered_toList.imp fun {t u} h ↦ ?_
    simp [compareLex, compareOn, h]
  · refine db.relations.ordered_keys_toList.imp fun {p q} h d hd e he ↦ ?_
    obtain ⟨t, -, rfl⟩ := List.mem_map.1 hd
    obtain ⟨u, -, rfl⟩ := List.mem_map.1 he
    simp [compareLex, compareOn, h]

theorem nodup_derived (db : Database) : db.derived.Nodup := by
  refine db.ordered_derived.imp fun {d e} h ↦ ?_
  rintro rfl
  have hself : compareLex (compareOn Prod.fst) (compareOn Prod.snd) d d = .eq :=
    Std.ReflCmp.compare_self
  rw [hself] at h
  cases h

/-- The atom of a derived tuple. -/
def atomOf (d : Derived) : Atom := ⟨d.1.name, d.2⟩

theorem atoms_eq_map (db : Database) : db.atoms = db.derived.map atomOf := by
  rw [atoms, derived, List.map_flatMap]
  simp only [List.map_map]
  rfl

theorem WellFormed.relation_atomOf (hdb : db.WellFormed) {d : Derived}
    (hd : db.contains d.1 d.2 = true) : (atomOf d).relation = d.1 := by
  rw [atomOf, Atom.relation, hdb d.1 d.2 hd]

theorem mem_atoms (hdb : db.WellFormed) {a : Atom} : a ∈ db.atoms ↔ a ∈ db.atomSet := by
  rw [atoms_eq_map, List.mem_map]
  constructor
  · rintro ⟨d, hd, rfl⟩
    have hd := mem_derived.1 hd
    show db.contains (atomOf d).relation d.2 = true
    rw [hdb.relation_atomOf hd]
    exact hd
  · intro ha
    exact ⟨(a.relation, a.args), mem_derived.2 ha, rfl⟩

theorem nodup_atoms (hdb : db.WellFormed) : db.atoms.Nodup := by
  rw [atoms_eq_map]
  refine (nodup_derived db).map_on fun d hd e he heq ↦ ?_
  have hrel := congrArg Atom.relation heq
  rw [hdb.relation_atomOf (mem_derived.1 hd), hdb.relation_atomOf (mem_derived.1 he)] at hrel
  exact Prod.ext hrel (congrArg Atom.args heq)

/-- A database that counts right counts what it lists. -/
theorem Counts.size_eq_length {s : Finset Derived} (h : db.Counts s) :
    db.size = db.derived.length := by
  have hs : s = db.derived.toFinset := by
    ext d
    rw [List.mem_toFinset, mem_derived, h.1]
  rw [h.2, hs, List.toFinset_card_of_nodup (nodup_derived db)]

theorem Counts.size_eq {s : Finset Derived} (h : db.Counts s) : db.size = db.atoms.length := by
  rw [h.size_eq_length, atoms_eq_map, List.length_map]

theorem Counts.of_absorb {s : Finset Derived} {ds : List Derived} (hs : db.Counts s)
    (h : absorb budget ds db = some db') : ∃ s', db'.Counts s' := by
  induction ds generalizing db s with
  | nil =>
    cases h
    exact ⟨s, hs⟩
  | cons d ds ih =>
    simp only [absorb] at h
    split at h
    · cases h
    · exact ih (hs.insert d.1 d.2) h

end Database

/-- The database counts right, and the budget allows for what it contains. -/
structure Fits (budget : Nat) (db : Database) : Prop where
  counts : ∃ s, db.Counts s
  size_le : db.size ≤ budget

theorem Fits.saturate (h : Fits budget db) (hsat : saturate budget rules db = some db') :
    Fits budget db' := by
  refine (saturate_induction (fun mid mid' hmid hstep ↦ ?_) hsat h).1
  obtain ⟨⟨s, hs⟩, hsize⟩ := hmid
  refine ⟨hs.of_absorb hstep, ?_⟩
  by_cases hdone : consequences mid rules = []
  · rw [hdone] at hstep
    cases hstep
    exact hsize
  · exact size_le_budget_of_absorb hstep hdone

theorem Fits.saturateStrata {ks : List Nat} (h : Fits budget db)
    (hsat : saturateStrata budget levels rules ks db = some db') : Fits budget db' := by
  induction ks generalizing db with
  | nil =>
    cases hsat
    exact h
  | cons k ks ih =>
    obtain ⟨mid, hmid, hrest⟩ := saturateStrata_cons hsat
    exact ih (h.saturate hmid) hrest

/-- An evaluation that gets through derives no more atoms than the budget allows. -/
theorem length_atoms_le_of_saturateStrata {ks : List Nat}
    (h : saturateStrata budget levels rules ks .empty = some db) : db.atoms.length ≤ budget := by
  have hempty : Fits budget .empty := ⟨⟨∅, Database.counts_empty⟩, Nat.zero_le budget⟩
  obtain ⟨⟨s, hs⟩, hsize⟩ := hempty.saturateStrata h
  rwa [← hs.size_eq]

/-! ## There is room enough -/

/-- The constants in the heads of the rules. -/
def headConstants (rules : List Rule) : Set Term :=
  {t | ∃ r ∈ rules, ∃ head, r.head = some head ∧ .const t ∈ head.args}

theorem finite_headConstants (rules : List Rule) : (headConstants rules).Finite := by
  let constants : List Arg := rules.flatMap fun r ↦ (r.head.map Pattern.args).getD []
  refine (constants.toFinset.finite_toSet.image (Arg.value fun _ ↦ default)).subset ?_
  rintro t ⟨r, hr, head, hhead, ht⟩
  refine ⟨.const t, ?_, rfl⟩
  rw [Finset.mem_coe, List.mem_toFinset, List.mem_flatMap]
  exact ⟨r, hr, by simpa [hhead] using ht⟩

/-- The relations of the program with tuples of constants from heads. -/
def groundSpace (rules : List Rule) : Set Derived :=
  {d | d.1 ∈ relationsOf rules ∧ d.2.length = d.1.arity ∧ ∀ t ∈ d.2, t ∈ headConstants rules}

theorem finite_tuples {C : Set Term} (hC : C.Finite) (n : Nat) :
    {ts : Tuple | ts.length = n ∧ ∀ t ∈ ts, t ∈ C}.Finite := by
  have : Finite C := hC
  refine ((List.finite_length_eq C n).image (List.map Subtype.val)).subset ?_
  rintro ts ⟨hlen, hts⟩
  lift ts to List C using hts
  exact ⟨ts, by simpa using hlen, rfl⟩

theorem finite_groundSpace (rules : List Rule) : (groundSpace rules).Finite := by
  have htuples := fun r : Relation ↦ finite_tuples (finite_headConstants rules) r.arity
  refine ((relationsOf rules).toList.toFinset.finite_toSet.biUnion fun r _ ↦
    (htuples r).image (r, ·)).subset ?_
  rintro ⟨r, ts⟩ ⟨hr, hlen, hts⟩
  rw [Set.mem_iUnion₂]
  refine ⟨r, ?_, ts, ⟨hlen, hts⟩, rfl⟩
  rw [Finset.mem_coe, List.mem_toFinset, Std.ExtTreeSet.mem_toList]
  exact hr

/-- The terms that a rule takes over from atoms of the space stay among the constants of heads. -/
theorem mem_groundSpace_of_consequence (hsafe : ∀ r ∈ rules, r.Safe) (hdb : db.WellFormed)
    (hspace : ∀ d : Derived, db.contains d.1 d.2 = true → d ∈ groundSpace rules) {k : Nat}
    {d : Derived} (hd : d ∈ consequences db (stratum levels rules k)) : d ∈ groundSpace rules := by
  obtain ⟨-, r, hr, head, σ, hhead, hbody, rfl⟩ :=
    (mem_consequences_iff (safe_of_mem_stratum hsafe) hdb).1 hd
  have hr := (mem_stratum.1 hr).1
  refine ⟨mem_relationsOf.2 ⟨r, hr, .inl ?_⟩, List.length_map _, fun t ht ↦ ?_⟩
  · rw [Rule.headRelation?, hhead, Option.map_some]
  · obtain ⟨a, ha, rfl⟩ := List.mem_map.1 ht
    cases a with
    | const t => exact ⟨r, hr, head, hhead, ha⟩
    | var x =>
      obtain ⟨p, hp, hx⟩ := (hsafe r hr).head head hhead x ha
      have hmem : (p.relation, p.args.map (Arg.value σ)) ∈ groundSpace rules :=
        hspace _ (Database.atom_mem_atomSet_iff.1 (hbody _ hp))
      exact hmem.2.2 _ (List.mem_map.2 ⟨.var x, hx, rfl⟩)

/-- The database counts right and has not left the space. -/
structure StaysIn (space : Finset Derived) (db : Database) : Prop where
  wellFormed : db.WellFormed
  counts : ∃ s, db.Counts s ∧ s ⊆ space

namespace StaysIn

variable {space : Finset Derived}

theorem empty : StaysIn space .empty :=
  ⟨Database.wellFormed_empty, ∅, Database.counts_empty, Finset.empty_subset _⟩

theorem mem (h : StaysIn space db) {d : Derived} (hd : db.contains d.1 d.2 = true) : d ∈ space := by
  obtain ⟨s, hs, hsub⟩ := h.counts
  exact hsub ((hs.1 d).2 hd)

end StaysIn

/-- A budget of the size of the space is never exceeded in it. -/
theorem exists_absorb {space s : Finset Derived} {ds : List Derived} (hs : db.Counts s)
    (hsub : s ⊆ space) (hds : ∀ d ∈ ds, d ∈ space) :
    ∃ db' s', absorb space.card ds db = some db' ∧ db'.Counts s' ∧ s' ⊆ space := by
  induction ds generalizing db s with
  | nil => exact ⟨db, s, rfl, hs, hsub⟩
  | cons d ds ih =>
    obtain ⟨hd, hds⟩ := List.forall_mem_cons.1 hds
    have hcounts := hs.insert d.1 d.2
    have hsub' : insert d s ⊆ space := Finset.insert_subset hd hsub
    obtain ⟨db', s', habsorb, h⟩ := ih hcounts hsub' hds
    refine ⟨db', s', ?_, h⟩
    have hfits : ¬ space.card < (db.insert d.1 d.2).size := by
      rw [hcounts.2]
      exact Nat.not_lt.2 (Finset.card_le_card hsub')
    rw [absorb]
    exact (if_neg hfits).trans habsorb

theorem exists_saturate {space : Finset Derived} (hsafe : ∀ r ∈ rules, r.Safe)
    (hclosed : ∀ db, StaysIn space db → ∀ d ∈ consequences db rules, d ∈ space)
    (hdb : StaysIn space db) :
    ∃ db', saturate space.card rules db = some db' ∧ StaysIn space db' := by
  fun_induction saturate space.card rules db with
  | case1 db hdone => exact ⟨db, rfl, hdb⟩
  | case2 db d ds hds hnone =>
    obtain ⟨s, hs, hsub⟩ := hdb.counts
    obtain ⟨_, _, hsome, -⟩ := exists_absorb hs hsub (hclosed db hdb)
    rw [hds, hnone] at hsome
    cases hsome
  | case3 db d ds hds mid hmid ih =>
    obtain ⟨s, hs, hsub⟩ := hdb.counts
    obtain ⟨mid', s', hsome, hs', hsub'⟩ := exists_absorb hs hsub (hclosed db hdb)
    rw [hds, hmid] at hsome
    cases hsome
    rw [← hds] at hmid
    exact ih ⟨Database.wellFormed_of_absorb hsafe hdb.wellFormed hmid, s', hs', hsub'⟩

theorem exists_saturateStrata_from {space : Finset Derived} (hsafe : ∀ r ∈ rules, r.Safe)
    (hspace : ∀ d, d ∈ space ↔ d ∈ groundSpace rules) {ks : List Nat} (hdb : StaysIn space db) :
    ∃ db', saturateStrata space.card levels rules ks db = some db' ∧ StaysIn space db' := by
  induction ks generalizing db with
  | nil => exact ⟨db, rfl, hdb⟩
  | cons k ks ih =>
    have hclosed : ∀ db, StaysIn space db →
        ∀ d ∈ consequences db (stratum levels rules k), d ∈ space := fun db hdb d hd ↦
      (hspace d).2 (mem_groundSpace_of_consequence hsafe hdb.wellFormed
        (fun e he ↦ (hspace e).1 (hdb.mem he)) hd)
    obtain ⟨mid, hmid, hstays⟩ := exists_saturate (safe_of_mem_stratum hsafe) hclosed hdb
    obtain ⟨db', hdb', h⟩ := ih hstays
    exact ⟨db', by rw [saturateStrata, hmid]; exact hdb', h⟩

/-- **Every program of safe rules can be evaluated**, and the budget that its evaluation takes is
the number of atoms that it derives. -/
theorem exists_saturateStrata (hsafe : ∀ r ∈ rules, r.Safe) (levels : Levels) (ks : List Nat) :
    ∃ db : Database, db.WellFormed ∧ ∀ budget, db.atoms.length ≤ budget →
      saturateStrata budget levels rules ks .empty = some db := by
  obtain ⟨space, hspace⟩ : ∃ space : Finset Derived, ∀ d, d ∈ space ↔ d ∈ groundSpace rules :=
    ⟨(finite_groundSpace rules).toFinset, fun d ↦ Set.Finite.mem_toFinset _⟩
  obtain ⟨db, hdb, hstays⟩ : ∃ db, saturateStrata space.card levels rules ks .empty = some db ∧
      StaysIn space db := exists_saturateStrata_from hsafe hspace StaysIn.empty
  obtain ⟨s, hs, -⟩ := hstays.counts
  refine ⟨db, hstays.wellFormed, fun budget hbudget ↦ saturateStrata_of_size_le hdb ?_⟩
  rw [hs.size_eq]
  exact hbudget

end RightOfWay
