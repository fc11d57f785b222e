import Mathlib.Data.List.Duplicate
import RightOfWay.Proofs.Rules.Cutting
import RightOfWay.Proofs.Rules.Meaning
import RightOfWay.Proofs.Rules.Sections

/-!
# Anonymous variables

The lexer calls anonymous variables `_1`, `_2` and so on.  A rule may use such a name itself, and
then it means the same variable (`written_name_joins`).  Apart from that the names do what they are
there for.

* No two anonymous variables of a text have the same name, and if another variable has the name of
  an anonymous one, then this is how its author has written it (`eq_iff_of_number`).
* So an anonymous variable whose name is not written in its rule stands at one place there
  (`count_number_le_one`), an argument of an atom in the body.  Matching meets it with nothing bound
  to it, and then any term will do, whatever the other arguments are (`Rule.LeavesOpen`,
  `Rule.leavesOpen_of_count`).

`anonymous_independent` puts this together for a program text.
-/

set_option autoImplicit false

namespace RightOfWay

/-! ## Names -/

theorem toList_anonymousName (n : Nat) : (anonymousName n).toList = '_' :: Nat.toDigits 10 n := by
  rw [anonymousName, String.toList_append, Nat.toString_eq_repr, Nat.toList_repr]
  rfl

theorem anonymousName_inj {m n : Nat} : anonymousName m = anonymousName n ↔ m = n := by
  refine ⟨fun h ↦ ?_, congrArg _⟩
  have hdigits := congrArg String.toList h
  rw [toList_anonymousName, toList_anonymousName, List.cons.injEq] at hdigits
  rw [← value_toDigits m, hdigits.2, value_toDigits]

theorem anonymousName_ne (n : Nat) : anonymousName n ≠ "_" := by
  intro h
  have hdigits := congrArg String.toList h
  rw [toList_anonymousName] at hdigits
  exact Nat.toDigits_ne_nil (List.cons.inj hdigits).2

section Number

variable {seen i j : Nat} {ks : List Token} {x y : String}

theorem var_ne_anonymous (h : x ≠ "_") : Token.var x ≠ .anonymous :=
  fun heq ↦ h (Token.var.inj heq)

/-- Names that nobody has written are names of anonymous variables. -/
theorem anonymous_of_number (h : (number seen ks)[i]? = some (.var x)) (hx : .var x ∉ ks) :
    ks[i]? = some .anonymous := by
  rw [getElem?_number, Option.map_eq_some_iff] at h
  obtain ⟨k, hk, heq⟩ := h
  by_cases hanonymous : k = .anonymous
  · rw [hk, hanonymous]
  · rw [if_neg hanonymous] at heq
    exact absurd (heq ▸ List.mem_of_getElem? hk) hx

theorem name_of_anonymous (h : ks[i]? = some .anonymous) : (number seen ks)[i]? =
    some (.var (anonymousName (seen + (ks.take (i + 1)).count .anonymous))) := by
  rw [getElem?_number, h, Option.map_some, if_pos rfl]

theorem count_take_lt (hij : i < j) (hj : ks[j]? = some .anonymous) :
    (ks.take (i + 1)).count .anonymous < (ks.take (j + 1)).count .anonymous := by
  have hprefix : (ks.take (i + 1)).count .anonymous ≤ (ks.take j).count .anonymous :=
    (List.take_sublist_take_left hij).count_le _
  rw [List.take_add_one (i := j), hj, Option.toList_some, List.count_append,
    List.count_singleton_self]
  exact Nat.lt_succ_of_le hprefix

/-- Two anonymous variables differ in their names, and another variable has the name of an anonymous
one only if it is written so. -/
theorem eq_iff_of_number (hi : ks[i]? = some .anonymous) (hij : j ≠ i)
    (hx : (number seen ks)[i]? = some (.var x)) (hy : (number seen ks)[j]? = some (.var y)) :
    x = y ↔ ks[j]? = some (.var x) := by
  rw [name_of_anonymous hi, Option.some_inj, Token.var.injEq] at hx
  have hname : x ≠ "_" := hx ▸ anonymousName_ne _
  by_cases hj : ks[j]? = some .anonymous
  · rw [name_of_anonymous hj, Option.some_inj, Token.var.injEq] at hy
    have hne : (ks.take (i + 1)).count Token.anonymous ≠ (ks.take (j + 1)).count .anonymous := by
      rcases Nat.lt_or_gt_of_ne hij with h | h
      · exact (count_take_lt h hi).ne'
      · exact (count_take_lt h hj).ne
    rw [hj, Option.some_inj, ← hx, ← hy, anonymousName_inj, Nat.add_left_cancel_iff]
    exact iff_of_false hne fun h ↦ var_ne_anonymous (anonymousName_ne _) h.symm
  · rw [getElem?_number, Option.map_eq_some_iff] at hy
    obtain ⟨k, hk, hy⟩ := hy
    have hnamed : k ≠ .anonymous := by
      rintro rfl
      exact hj hk
    rw [if_neg hnamed] at hy
    rw [hk, hy, Option.some_inj, Token.var.injEq, eq_comm]

theorem count_number_le_one (hx : .var x ∉ ks) : (number seen ks).count (.var x) ≤ 1 := by
  by_contra hmany
  obtain ⟨i, j, hij, hi, hj⟩ := List.duplicate_iff_exists_distinct_get.1
    (List.duplicate_iff_two_le_count.2 (Nat.lt_of_not_le hmany))
  have hi : (number seen ks)[i.1]? = some (.var x) := by simp [hi]
  have hj : (number seen ks)[j.1]? = some (.var x) := by simp [hj]
  have hwritten := (eq_iff_of_number (anonymous_of_number hi hx) (Nat.ne_of_gt hij) hi hj).1 rfl
  exact hx (List.mem_of_getElem? hwritten)

end Number

/-! ## The variables of a rule -/

/-- The arguments of a literal. -/
def Literal.args : Literal → List Arg
  | pos p | neg p => p.args
  | cmp lhs _ rhs => [lhs, rhs]

/-- The arguments in a rule, from front to back. -/
def Rule.args (r : Rule) : List Arg :=
  (r.head.map Pattern.args).getD [] ++ r.body.flatMap Literal.args

section Count

variable (x : String)

@[simp] theorem Arg.token_eq_var {a : Arg} : a.token = .var x ↔ a = .var x := by
  cases a with
  | var name => simp [token]
  | const t => cases t <;> simp [token]

theorem Arg.count_listTokens (as : List Arg) :
    (listTokens as).count (.var x) = as.count (.var x) := by
  induction as with
  | nil => rfl
  | cons a as ih =>
    by_cases has : as = []
    · simp [has, listTokens_singleton, List.count_cons]
    · simp [listTokens_cons has, List.count_cons, ih]

theorem Pattern.count_tokens (p : Pattern) : p.tokens.count (.var x) = p.args.count (.var x) := by
  by_cases hargs : p.args = []
  · simp [tokens, hargs]
  · simp [tokens, hargs, Arg.count_listTokens]

theorem Literal.count_tokens (l : Literal) : l.tokens.count (.var x) = l.args.count (.var x) := by
  cases l with
  | pos p => exact p.count_tokens x
  | neg p => simp [tokens, args, p.count_tokens]
  | cmp lhs c rhs => simp [tokens, args, List.count_cons]

theorem Literal.count_listTokens (ls : List Literal) :
    (listTokens ls).count (.var x) = (ls.flatMap args).count (.var x) := by
  induction ls with
  | nil => rfl
  | cons l ls ih =>
    by_cases hls : ls = []
    · simp [hls, listTokens_singleton, count_tokens]
    · simp [listTokens_cons hls, count_tokens, ih]

/-- A rule has a variable as often among its tokens as among its arguments. -/
theorem Rule.count_tokens (r : Rule) : r.tokens.count (.var x) = r.args.count (.var x) := by
  have hhead : ((r.head.map Pattern.tokens).getD []).count (.var x) =
      ((r.head.map Pattern.args).getD []).count (.var x) := by
    cases r.head with
    | none => rfl
    | some head => exact head.count_tokens x
  by_cases hbody : r.body = []
  · simp [tokens, args, hhead, hbody]
  · simp [tokens, args, hhead, hbody, Literal.count_listTokens]

end Count

/-! ## Matching -/

section Match

variable {as bs : List Arg} {us vs : Tuple} {b b' : Binding} {x : String} {t : Term}

theorem insert_comm {y : String} {u : Term} (h : x ≠ y) :
    (b.insert x t).insert y u = (b.insert y u).insert x t := by
  ext z v
  simp only [Std.ExtTreeMap.getElem?_insert, Std.LawfulEqCmp.compare_eq_iff_eq]
  by_cases hy : y = z
  · subst hy
    simp [h]
  · simp [hy]

theorem matchArgs_append (hlen : us.length = as.length) :
    matchArgs (as ++ bs) (us ++ vs) b = (matchArgs as us b).bind (matchArgs bs vs) := by
  induction as generalizing us b with
  | nil =>
    obtain rfl := List.length_eq_zero_iff.1 hlen
    rfl
  | cons a as ih =>
    obtain ⟨u, us, rfl⟩ := List.exists_cons_of_length_eq_add_one hlen
    have ih := fun b ↦ @ih us b (Nat.succ.inj hlen)
    cases a with
    | const k =>
      simp only [List.cons_append, matchArgs, ih]
      split <;> rfl
    | var y =>
      simp only [List.cons_append, matchArgs, ih]
      split
      · split <;> rfl
      · rfl

/-- Matching leaves variables alone that are not among the arguments. -/
theorem getElem?_of_matchArgs (hx : .var x ∉ as) (h : matchArgs as us b = some b') :
    b'[x]? = b[x]? := by
  fun_induction matchArgs as us b with
  | case1 as us b u ih => exact ih (fun hmem ↦ hx (.tail _ hmem)) h
  | case2 => cases h
  | case3 y as us b u hbound ih => exact ih (fun hmem ↦ hx (.tail _ hmem)) h
  | case4 => cases h
  | case5 y as u us b hbound ih =>
    have hne : y ≠ x := by
      rintro rfl
      exact hx (.head _)
    rw [ih (fun hmem ↦ hx (.tail _ hmem)) h, Std.ExtTreeMap.getElem?_insert,
      if_neg (by simpa using hne)]
  | case6 =>
    cases h
    rfl

theorem getElem?_of_mem_solutions {db : Database} {ls : List Literal}
    (hx : ∀ l ∈ ls, .var x ∉ l.args) (h : b' ∈ solutions db ls b) : b'[x]? = b[x]? := by
  induction ls generalizing b with
  | nil => rw [List.mem_singleton.1 h]
  | cons l ls ih =>
    obtain ⟨hl, hls⟩ := List.forall_mem_cons.1 hx
    cases l with
    | pos p =>
      obtain ⟨u, -, d, hd, hb'⟩ := mem_solutions_pos.1 h
      rw [ih hls hb', getElem?_of_matchArgs hl hd]
    | neg p =>
      rw [solutions] at h
      split at h
      · cases h
      · exact ih hls h
    | cmp lhs o rhs =>
      rw [solutions] at h
      split at h
      · split at h
        · exact ih hls h
        · cases h
      · cases h

/-- Matching does not look at variables that are not among the arguments. -/
theorem matchArgs_insert (hx : .var x ∉ bs) :
    matchArgs bs vs (b.insert x t) = (matchArgs bs vs b).map (·.insert x t) := by
  induction bs generalizing vs b with
  | nil => rfl
  | cons a bs ih =>
    obtain ⟨ha, hbs⟩ := not_or.1 (List.mem_cons.not.1 hx)
    cases vs with
    | nil => cases a <;> rfl
    | cons v vs =>
      cases a with
      | const k =>
        simp only [matchArgs, ih hbs]
        split <;> rfl
      | var y =>
        have hne : x ≠ y := fun h ↦ ha (h ▸ rfl)
        have hget : (b.insert x t)[y]? = b[y]? := by
          rw [Std.ExtTreeMap.getElem?_insert, if_neg (by simpa using hne)]
        simp only [matchArgs, hget]
        split
        · split
          · exact ih hbs
          · rfl
        · rw [insert_comm hne, ih hbs]

/-- A variable that nothing else mentions takes the term that is there. -/
theorem matchArgs_of_notMem (hlen : us.length = as.length) (hb : b[x]? = none) (has : .var x ∉ as)
    (hbs : .var x ∉ bs) : matchArgs (as ++ .var x :: bs) (us ++ t :: vs) b =
      (matchArgs (as ++ bs) (us ++ vs) b).map (·.insert x t) := by
  rw [matchArgs_append hlen, matchArgs_append hlen, Option.map_bind]
  cases hb' : matchArgs as us b with
  | none => rfl
  | some b' =>
    have hnone : b'[x]? = none := (getElem?_of_matchArgs has hb').trans hb
    rw [Option.bind_some, Option.bind_some, matchArgs, hnone]
    exact matchArgs_insert hbs

end Match

/-! ## Variables that are left open -/

namespace Rule

variable {r : Rule} {x : String}

/-- The variable stands at one place of the rule, as an argument of an atom in the body.  When the
turn comes to this atom, the variable takes any term that is there, and the atom matches if its
other arguments do. -/
def LeavesOpen (r : Rule) (x : String) : Prop :=
  r.args.count (.var x) = 1 ∧
    ∃ (before after : List Literal) (l : Literal) (p : Pattern) (as bs : List Arg),
      r.joinOrder = before ++ l :: after ∧ (l = .pos p ∨ l = .neg p) ∧
      p.args = as ++ .var x :: bs ∧
      ∀ db, ∀ b ∈ RightOfWay.solutions db before ∅, ∀ us t vs, us.length = as.length →
        matchArgs p.args (us ++ t :: vs) b =
          (matchArgs (as ++ bs) (us ++ vs) b).map (·.insert x t)

theorem Binds.mem (h : r.Binds x) : .var x ∈ r.body.flatMap Literal.args := by
  obtain ⟨p, hp, hx⟩ := h
  exact List.mem_flatMap.2 ⟨.pos p, hp, hx⟩

/-- Every variable of a safe rule stands in the body. -/
theorem mem_body_of_mem_args (hsafe : r.Safe) (hx : .var x ∈ r.args) :
    .var x ∈ r.body.flatMap Literal.args := by
  rcases List.mem_append.1 hx with hhead | hbody
  · cases hr : r.head with
    | none =>
      rw [hr] at hhead
      cases hhead
    | some head =>
      rw [hr] at hhead
      exact (hsafe.head head hr x hhead).mem
  · exact hbody

theorem count_joinOrder (a : Arg) :
    (r.joinOrder.flatMap Literal.args).count a = (r.body.flatMap Literal.args).count a :=
  ((List.filter_append_perm _ r.body).flatMap_right Literal.args).count_eq a

theorem notMem_of_count {a : Arg} {as bs : List Arg} (h : (as ++ a :: bs).count a ≤ 1) :
    a ∉ as ∧ a ∉ bs := by
  rw [List.count_append, List.count_cons_self] at h
  exact ⟨List.count_eq_zero.1 (by omega), List.count_eq_zero.1 (by omega)⟩

/-- A variable that stands in one literal of a safe rule only, stands there as the argument of an
atom: safe comparisons are about variables of atoms. -/
theorem exists_pattern_of_alone (hsafe : r.Safe) {before after : List Literal} {l : Literal}
    (hjoin : r.joinOrder = before ++ l :: after) (hbefore : .var x ∉ before.flatMap Literal.args)
    (hafter : .var x ∉ after.flatMap Literal.args) (hx : .var x ∈ l.args) :
    ∃ p, (l = .pos p ∨ l = .neg p) ∧ l.args = p.args := by
  cases l with
  | pos p => exact ⟨p, .inl rfl, rfl⟩
  | neg p => exact ⟨p, .inr rfl, rfl⟩
  | cmp lhs c rhs =>
    have hl : .cmp lhs c rhs ∈ r.body :=
      mem_joinOrder.1 (hjoin ▸ List.mem_append_right _ List.mem_cons_self)
    have hside : lhs = .var x ∨ rhs = .var x := by simpa [Literal.args, eq_comm] using hx
    obtain ⟨q, hq, hxq⟩ := hsafe.comparison lhs c rhs hl x hside
    have hmem := mem_joinOrder.2 hq
    rw [hjoin, List.mem_append, List.mem_cons] at hmem
    rcases hmem with hmem | hmem | hmem
    · exact absurd (List.mem_flatMap.2 ⟨_, hmem, hxq⟩) hbefore
    · cases hmem
    · exact absurd (List.mem_flatMap.2 ⟨_, hmem, hxq⟩) hafter

/-- A variable that stands at one place of a safe rule is left open. -/
theorem leavesOpen_of_count (hsafe : r.Safe) (hx : .var x ∈ r.args)
    (hcount : r.args.count (.var x) ≤ 1) : r.LeavesOpen x := by
  refine ⟨Nat.le_antisymm hcount (List.count_pos_iff.2 hx), ?_⟩
  obtain ⟨l, hl, hxl⟩ := List.mem_flatMap.1 (mem_body_of_mem_args hsafe hx)
  obtain ⟨before, after, hjoin⟩ := List.append_of_mem (mem_joinOrder.2 hl)
  obtain ⟨as, bs, hsplit⟩ := List.append_of_mem hxl
  -- this place is the only one among all arguments in the body
  have hplaces : r.joinOrder.flatMap Literal.args =
      (before.flatMap Literal.args ++ as) ++ .var x :: (bs ++ after.flatMap Literal.args) := by
    rw [hjoin, List.flatMap_append, List.flatMap_cons, hsplit]
    simp only [List.append_assoc, List.cons_append]
  have hbody : (r.joinOrder.flatMap Literal.args).count (.var x) ≤ 1 := by
    rw [count_joinOrder]
    rw [args, List.count_append] at hcount
    exact (Nat.le_add_left _ _).trans hcount
  rw [hplaces] at hbody
  obtain ⟨hfront, hbehind⟩ := notMem_of_count hbody
  obtain ⟨hbefore, has⟩ := not_or.1 (List.mem_append.not.1 hfront)
  obtain ⟨hbs, hafter⟩ := not_or.1 (List.mem_append.not.1 hbehind)
  obtain ⟨p, hp, hargs⟩ := exists_pattern_of_alone hsafe hjoin hbefore hafter hxl
  refine ⟨before, after, l, p, as, bs, hjoin, hp, hargs ▸ hsplit, fun db b hb us t vs hlen ↦ ?_⟩
  have hnone : b[x]? = none := by
    have hkeep := getElem?_of_mem_solutions
      (fun m hm hmem ↦ hbefore (List.mem_flatMap.2 ⟨m, hm, hmem⟩)) hb
    exact hkeep.trans (by simp)
  rw [← hargs, hsplit]
  exact matchArgs_of_notMem hlen hnone has hbs

end Rule

/-! ## Programs -/

/-- Tokens of rules belong to parts of what is written, one for each rule. -/
theorem exists_parts {seen : Nat} {ks : List Token} {rs : List Rule}
    (h : number seen ks = rs.flatMap Rule.tokens) :
    ∃ parts : List (List Token), parts.flatten = ks ∧
      List.Forall₂ (fun r part ↦ ∃ seen, r.tokens = number seen part) rs parts := by
  induction rs generalizing seen ks with
  | nil =>
    have hlength := congrArg List.length h
    rw [length_number] at hlength
    exact ⟨[], (List.length_eq_zero_iff.1 hlength).symm, .nil⟩
  | cons r rs ih =>
    obtain ⟨part, rest, rfl, hpart, hrest⟩ : ∃ part rest, ks = part ++ rest ∧
        r.tokens = number seen part ∧
        number (seen + part.count .anonymous) rest = rs.flatMap Rule.tokens := by
      have hsplit := List.take_append_drop r.tokens.length ks
      have hlength := congrArg List.length h
      rw [length_number, List.flatMap_cons, List.length_append] at hlength
      rw [← hsplit, number_append, List.flatMap_cons] at h
      obtain ⟨hpart, hrest⟩ := List.append_inj h (by rw [length_number, List.length_take]; omega)
      exact ⟨_, _, hsplit.symm, hpart.symm, hrest⟩
    obtain ⟨parts, rfl, hparts⟩ := ih hrest
    exact ⟨part :: parts, rfl, .cons ⟨seen, hpart⟩ hparts⟩

/-- **Anonymous variables are independent, except for names that somebody has written.**  The tokens
of a text are those that are written in it, except that an anonymous variable has got a name.

* No other anonymous variable has this name, and any other variable only if it is written so.
* A variable of a rule with a name that is not written in the rule is an anonymous one, and the rule
  leaves it open: it takes any term, whatever the other arguments are. -/
theorem anonymous_independent {text : String} {ts : List Located} (h : tokens text = .ok ts) :
    ts.length = (writtenTokens text).length ∧
    (∀ i : Nat, (writtenTokens text)[i]? = some .anonymous →
      ∃ x, x ≠ "_" ∧ (ts.map Located.token)[i]? = some (.var x) ∧
        ∀ (j : Nat) y, j ≠ i → (ts.map Located.token)[j]? = some (.var y) →
          (x = y ↔ (writtenTokens text)[j]? = some (.var x))) ∧
    ∀ rules, parseProgram text = .ok rules →
      ∃ parts : List (List Token), parts.flatten = writtenTokens text ∧
        List.Forall₂ (fun r part ↦ (∃ seen, r.tokens = number seen part) ∧
          ∀ x, .var x ∈ r.args → .var x ∉ part → r.LeavesOpen x) rules parts := by
  have htokens := token_of_tokens h
  refine ⟨?_, fun i hi ↦ ?_, fun rules hparse ↦ ?_⟩
  · rw [← List.length_map Located.token, htokens, length_number]
  · have hname : (number 0 (writtenTokens text))[i]? = some (.var (anonymousName _)) :=
      name_of_anonymous hi
    rw [htokens]
    exact ⟨_, anonymousName_ne _, hname, fun j y hij hy ↦ eq_iff_of_number hi hij hname hy⟩
  · obtain ⟨ts', hts', hspelling, hsafe⟩ := parseProgram_eq_ok_iff.1 hparse
    cases h.symm.trans hts'
    obtain ⟨parts, hflatten, hparts⟩ := exists_parts (htokens.symm.trans hspelling.map_token)
    refine ⟨parts, hflatten, ((List.forall₂_and_left _ _).2 ⟨hsafe, hparts⟩).imp ?_⟩
    rintro r part ⟨hr, seen, hpart⟩
    refine ⟨⟨seen, hpart⟩, fun x hx hwritten ↦ ?_⟩
    have hcount : (number seen part).count (.var x) ≤ 1 := count_number_le_one hwritten
    rw [← hpart, Rule.count_tokens] at hcount
    exact Rule.leavesOpen_of_count (Rule.safe_of_unsafeVar?_eq_none hr) hx hcount

/-- In the rule for sources both anonymous variables are left open. -/
theorem anonymous_independent_sources :
    ∃ ts, tokens "edge(1,2).\nsource(X) :- edge(X,_), not edge(_,X)." = .ok ts ∧
      sources[1].LeavesOpen "_1" ∧ sources[1].LeavesOpen "_2" := by
  obtain ⟨ts, hts, -⟩ := parseProgram_eq_ok_iff.1 parseProgram_sources
  obtain ⟨-, -, hrules⟩ := anonymous_independent hts
  obtain ⟨parts, hflatten, hparts⟩ := hrules sources parseProgram_sources
  obtain ⟨fact, rest, -, hrest, rfl⟩ := List.forall₂_cons_left_iff.1 hparts
  obtain ⟨part, _, ⟨-, hopen⟩, -, rfl⟩ := List.forall₂_cons_left_iff.1 hrest
  have hwritten : ∀ x ∈ ["_1", "_2"], .var x ∉
      writtenTokens "edge(1,2).\nsource(X) :- edge(X,_), not edge(_,X)." := by
    decide +kernel
  have hnew : ∀ x ∈ ["_1", "_2"], .var x ∉ part := fun x hx hmem ↦
    hwritten x hx (hflatten ▸ List.mem_flatten.2 ⟨part, .tail _ (.head _), hmem⟩)
  exact ⟨ts, hts, hopen "_1" (by decide) (hnew "_1" (by decide)),
    hopen "_2" (by decide) (hnew "_2" (by decide))⟩

/-- A fact, and a rule that should hold for any pair but has written the name of its anonymous
variable. -/
def joining : List Rule :=
  [⟨some ⟨"pair", [.const (.symbol "a"), .const (.symbol "b")]⟩, [], 1⟩,
    ⟨some ⟨"both", []⟩, [.pos ⟨"pair", [.var "_1", .var "_1"]⟩], 2⟩]

/-- **A written name can be the name of an anonymous variable.**  Both arguments of the rule's atom
are called `_1` then, and the atom does not match a pair of different terms. -/
theorem written_name_joins :
    (writtenTokens "pair(a, b).\nboth :- pair(_1, _).\n")[11]? = some (.var "_1") ∧
    (writtenTokens "pair(a, b).\nboth :- pair(_1, _).\n")[13]? = some .anonymous ∧
    (tokens "pair(a, b).\nboth :- pair(_1, _).\n").map (fun ts ↦ (ts.map Located.token)[11]?) =
      .ok (some (.var "_1")) ∧
    (tokens "pair(a, b).\nboth :- pair(_1, _).\n").map (fun ts ↦ (ts.map Located.token)[13]?) =
      .ok (some (.var "_1")) ∧
    parseProgram "pair(a, b).\nboth :- pair(_1, _).\n" = .ok joining ∧
    evaluate 100000 joining = .model [⟨"pair", [.symbol "a", .symbol "b"]⟩] := by
  refine ⟨?_, ?_, ?_, ?_, ?_, ?_⟩
  all_goals decide +kernel

end RightOfWay
