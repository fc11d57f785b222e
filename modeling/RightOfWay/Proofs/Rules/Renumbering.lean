import RightOfWay.Proofs.Rules.Concatenation
import RightOfWay.Proofs.Rules.Matching
import RightOfWay.Proofs.Rules.Sections

/-!
# Anonymous variables numbered anew

When a program text becomes part of a larger one, its anonymous variables get other numbers, and its
rules stand on other lines.  Nothing else happens to them.

* `Rule.blank` is a rule without the names of its anonymous variables and without its line.
* Tokens that differ from those of rules in names of anonymous variables only are read as rules that
  differ only in that (`exists_spelling_of_blank`).  The readers ask what kind of token comes next,
  and never for the name of a variable.
* Such rules are safe together (`Rule.unsafeVar?_blank`).

So programs can stand one behind the other in a text, which is then a program of all their rules
(`Holds.line`).
-/

set_option autoImplicit false

namespace RightOfWay

/-! ## Rules without the names -/

/-- The name of a variable, which an anonymous one does not have. -/
def blankName (x : String) : String := if isAnonymous x then "_" else x

/-- The token without the name of an anonymous variable. -/
def Token.blank : Token → Token
  | .var x => .var (blankName x)
  | k => k

/-- The argument without the name of an anonymous variable. -/
def Arg.blank : Arg → Arg
  | .var x => .var (blankName x)
  | .const t => .const t

/-- The pattern without the names of anonymous variables. -/
def Pattern.blank (p : Pattern) : Pattern := { p with args := p.args.map Arg.blank }

/-- The literal without the names of anonymous variables. -/
def Literal.blank : Literal → Literal
  | .pos p => .pos p.blank
  | .neg p => .neg p.blank
  | .cmp lhs c rhs => .cmp lhs.blank c rhs.blank

/-- The rule without the names of anonymous variables and without its line. -/
def Rule.blank (r : Rule) : Rule := ⟨r.head.map Pattern.blank, r.body.map Literal.blank, 0⟩

theorem isAnonymous_anonymousName (n : Nat) : isAnonymous (anonymousName n) = true := by
  rw [isAnonymous, anonymousName, String.toList_append]
  rfl

/-- Numbering only gives names to anonymous variables. -/
theorem map_blank_number (seen : Nat) (ks : List Token) :
    (number seen ks).map Token.blank = ks.map Token.blank := by
  induction ks generalizing seen with
  | nil => rfl
  | cons k ks ih =>
    by_cases hk : k = .anonymous
    · rw [hk, number_cons_anonymous, List.map_cons, ih, List.map_cons, Token.blank, blankName,
        isAnonymous_anonymousName]
      rfl
    · rw [number_cons hk, List.map_cons, ih, List.map_cons]

/-! ## Tokens that only differ in names -/

section Adapts

variable {k k' : Token} {ks ms : List Token}

theorem Token.eq_of_blank (h : k'.blank = k.blank) (hk : ∀ x, k ≠ .var x) : k' = k := by
  have hblank : k.blank = k := by
    cases k with
    | var x => exact absurd rfl (hk x)
    | _ => rfl
  rw [hblank] at h
  cases k' with
  | var y => exact absurd h.symm (hk _)
  | _ => exact h

/-- A token that is no variable stands in both lists. -/
theorem exists_cons_of_blank (h : ks.map Token.blank = (k :: ms).map Token.blank)
    (hk : ∀ x, k ≠ .var x) :
    ∃ ks', ks = k :: ks' ∧ ks'.map Token.blank = ms.map Token.blank := by
  rw [List.map_cons] at h
  obtain ⟨k', ks', rfl, hk', hks⟩ := List.map_eq_cons_iff.1 h
  rw [Token.eq_of_blank hk' hk]
  exact ⟨ks', rfl, hks⟩

theorem exists_append_of_blank {ms' : List Token}
    (h : ks.map Token.blank = (ms ++ ms').map Token.blank) :
    ∃ ks₁ ks₂, ks = ks₁ ++ ks₂ ∧ ks₁.map Token.blank = ms.map Token.blank ∧
      ks₂.map Token.blank = ms'.map Token.blank := by
  rw [List.map_append] at h
  exact List.map_eq_append_iff.1 h

/-- Tokens that differ from those of the thing in names only are the tokens of another one, which
differs in these names. -/
def Adapts {α : Type} (spell : α → List Token) (blank : α → α) (a : α) : Prop :=
  ∀ ks, ks.map Token.blank = (spell a).map Token.blank → ∃ b, spell b = ks ∧ blank b = blank a

/-- What holds of things holds of lists of them with commas in between. -/
theorem Adapts.intercalate {α : Type} {spell : α → List Token} {blank : α → α}
    (h : ∀ a, Adapts spell blank a) (as : List α) :
    Adapts (fun as ↦ [Token.comma].intercalate (as.map spell)) (List.map blank) as := by
  intro ks hks
  dsimp only at hks ⊢
  induction as generalizing ks with
  | nil => exact ⟨[], (List.map_eq_nil_iff.1 hks).symm, rfl⟩
  | cons a as ih =>
    cases as with
    | nil =>
      rw [List.map_singleton, List.intercalate_singleton] at hks
      obtain ⟨b, rfl, hb⟩ := h a ks hks
      exact ⟨[b], by rw [List.map_singleton, List.intercalate_singleton],
        by rw [List.map_singleton, hb]; rfl⟩
    | cons a' as =>
      rw [List.map_cons, List.intercalate_cons_of_ne_nil (by simp), List.append_assoc] at hks
      obtain ⟨first, rest, rfl, hfirst, hrest⟩ := exists_append_of_blank hks
      obtain ⟨rest, rfl, htail⟩ := exists_cons_of_blank hrest nofun
      obtain ⟨b, rfl, hb⟩ := h a first hfirst
      obtain ⟨bs, rfl, hbs⟩ := ih rest htail
      have hne : bs.map spell ≠ [] := by
        rintro hnil
        rw [List.map_eq_nil_iff.1 hnil] at hbs
        cases hbs
      exact ⟨b :: bs, by rw [List.map_cons, List.intercalate_cons_of_ne_nil hne]; simp,
        by rw [List.map_cons, hb, hbs]; rfl⟩

theorem Arg.adapts (a : Arg) : Adapts (fun a ↦ [a.token]) Arg.blank a := by
  intro ks hks
  obtain ⟨k, rfl, hk⟩ := List.map_eq_singleton_iff.1 hks
  cases a with
  | const t =>
    have hvar : ∀ x, (Arg.const t).token ≠ .var x := by cases t <;> nofun
    exact ⟨.const t, by rw [Token.eq_of_blank hk hvar], rfl⟩
  | var x =>
    cases k with
    | var y => exact ⟨.var y, rfl, congrArg Arg.var (Token.var.inj hk)⟩
    | _ => cases hk

theorem Pattern.adapts (p : Pattern) : Adapts Pattern.tokens Pattern.blank p := by
  intro ks hks
  obtain ⟨predicate, as⟩ := p
  obtain ⟨ks, rfl, hbrackets⟩ := exists_cons_of_blank hks (by simp)
  by_cases has : as = []
  · rw [if_pos has] at hbrackets
    obtain rfl := List.map_eq_nil_iff.1 hbrackets
    exact ⟨⟨predicate, as⟩, by rw [tokens, if_pos has], rfl⟩
  · rw [if_neg has] at hbrackets
    obtain ⟨ks, rfl, hargs⟩ := exists_cons_of_blank hbrackets (by simp)
    obtain ⟨first, rest, rfl, hfirst, hclose⟩ := exists_append_of_blank hargs
    obtain ⟨bs, rfl, hbs⟩ := Adapts.intercalate Arg.adapts as first hfirst
    obtain ⟨rest, rfl, hrest⟩ := exists_cons_of_blank hclose (by simp)
    obtain rfl := List.map_eq_nil_iff.1 hrest
    have hne : bs ≠ [] := by
      rintro rfl
      exact has (List.map_eq_nil_iff.1 hbs.symm)
    exact ⟨⟨predicate, bs⟩, by rw [tokens, if_neg hne]; rfl, by rw [blank, blank, hbs]⟩

theorem Literal.adapts (l : Literal) : Adapts Literal.tokens Literal.blank l := by
  intro ks hks
  cases l with
  | pos p =>
    obtain ⟨q, rfl, hq⟩ := p.adapts ks hks
    exact ⟨.pos q, rfl, congrArg Literal.pos hq⟩
  | neg p =>
    obtain ⟨ks, rfl, hp⟩ := exists_cons_of_blank hks (by simp)
    obtain ⟨q, rfl, hq⟩ := p.adapts ks hp
    exact ⟨.neg q, rfl, congrArg Literal.neg hq⟩
  | cmp lhs c rhs =>
    have hparts : ks.map Token.blank =
        ([lhs.token] ++ [.comparison c, rhs.token]).map Token.blank := hks
    obtain ⟨first, rest, rfl, hfirst, hrest⟩ := exists_append_of_blank hparts
    obtain ⟨lhs', rfl, hlhs⟩ := lhs.adapts first hfirst
    obtain ⟨rest, rfl, hright⟩ := exists_cons_of_blank hrest (by simp)
    obtain ⟨rhs', rfl, hrhs⟩ := rhs.adapts rest hright
    exact ⟨.cmp lhs' c rhs', rfl, by rw [blank, blank, hlhs, hrhs]⟩

/-- Tokens that differ from those of a rule in names only are those of a rule on any line. -/
theorem Rule.exists_of_blank (r : Rule) (line : Nat)
    (h : ks.map Token.blank = r.tokens.map Token.blank) :
    ∃ s : Rule, s.tokens = ks ∧ s.blank = r.blank ∧ s.line = line := by
  obtain ⟨head, body, _⟩ := r
  obtain ⟨front, last, rfl, hfront, hlast⟩ := exists_append_of_blank h
  obtain ⟨last, rfl, hnil⟩ := exists_cons_of_blank hlast (by simp)
  obtain rfl := List.map_eq_nil_iff.1 hnil
  obtain ⟨first, rest, rfl, hfirst, hrest⟩ := exists_append_of_blank hfront
  obtain ⟨head', rfl, hhead⟩ : ∃ head' : Option Pattern,
      (head'.map Pattern.tokens).getD [] = first ∧
        head'.map Pattern.blank = head.map Pattern.blank := by
    cases head with
    | none => exact ⟨none, (List.map_eq_nil_iff.1 hfirst).symm, rfl⟩
    | some p =>
      obtain ⟨q, rfl, hq⟩ := p.adapts first hfirst
      exact ⟨some q, rfl, congrArg some hq⟩
  obtain ⟨body', rfl, hbody⟩ : ∃ body' : List Literal,
      (if body' = [] then [] else .provided :: Literal.listTokens body') = rest ∧
        body'.map Literal.blank = body.map Literal.blank := by
    by_cases hbody : body = []
    · rw [if_pos hbody] at hrest
      exact ⟨[], (List.map_eq_nil_iff.1 hrest).symm, by rw [hbody]⟩
    · rw [if_neg hbody] at hrest
      obtain ⟨rest, rfl, hliterals⟩ := exists_cons_of_blank hrest (by simp)
      obtain ⟨body', rfl, hblank⟩ := Adapts.intercalate Literal.adapts body rest hliterals
      have hne : body' ≠ [] := by
        rintro rfl
        exact hbody (List.map_eq_nil_iff.1 hblank.symm)
      exact ⟨body', if_neg hne, hblank⟩
  exact ⟨⟨head', body', line⟩, rfl, by rw [blank, blank, hhead, hbody], rfl⟩

end Adapts

/-! ## What does not depend on the names -/

theorem isAnonymous_blankName (x : String) : isAnonymous (blankName x) = isAnonymous x := by
  rw [blankName]
  split
  · rename_i h
    rw [h]
    rfl
  · rfl

theorem blankName_of_named {x : String} (h : isAnonymous x = false) : blankName x = x := by
  rw [blankName, if_neg (by simp [h])]

theorem Pattern.mem_args_blank {p : Pattern} {y : String} :
    .var y ∈ p.blank.args ↔ ∃ x, .var x ∈ p.args ∧ blankName x = y := by
  rw [blank, List.mem_map]
  constructor
  · rintro ⟨a, ha, hy⟩
    cases a with
    | var x => exact ⟨x, ha, Arg.var.inj hy⟩
    | const t => cases hy
  · rintro ⟨x, hx, rfl⟩
    exact ⟨.var x, hx, rfl⟩

theorem Pattern.mem_args_blank_of_named {p : Pattern} {x : String} (hx : isAnonymous x = false) :
    .var x ∈ p.blank.args ↔ .var x ∈ p.args := by
  rw [mem_args_blank]
  constructor
  · rintro ⟨y, hy, rfl⟩
    rw [isAnonymous_blankName] at hx
    rwa [blankName_of_named hx]
  · exact fun h ↦ ⟨x, h, blankName_of_named hx⟩

theorem Pattern.mem_namedVars_blank {p : Pattern} {x : String} :
    x ∈ p.blank.namedVars ↔ x ∈ p.namedVars := by
  rw [mem_namedVars, mem_namedVars]
  exact and_congr_left mem_args_blank_of_named

theorem Pattern.anonymousVar?_eq_none_iff {p : Pattern} :
    p.anonymousVar? = none ↔ ∀ x, .var x ∈ p.args → isAnonymous x = false := by
  refine ⟨fun h x ↦ named_of_anonymousVar?_eq_none h, fun h ↦ ?_⟩
  refine List.findSome?_eq_none_iff.2 fun a ha ↦ ?_
  cases a with
  | const t => rfl
  | var x => simp [h x ha]

theorem Pattern.anonymousVar?_blank {p : Pattern} :
    p.blank.anonymousVar? = none ↔ p.anonymousVar? = none := by
  simp only [anonymousVar?_eq_none_iff, mem_args_blank]
  constructor
  · intro h x hx
    rw [← isAnonymous_blankName]
    exact h _ ⟨x, hx, rfl⟩
  · rintro h _ ⟨x, hx, rfl⟩
    rw [isAnonymous_blankName]
    exact h x hx

theorem Literal.blank_eq_pos {l : Literal} {p : Pattern} :
    l.blank = .pos p ↔ ∃ q, l = .pos q ∧ q.blank = p := by
  cases l <;> simp [blank]

theorem Literal.blank_eq_neg {l : Literal} {p : Pattern} :
    l.blank = .neg p ↔ ∃ q, l = .neg q ∧ q.blank = p := by
  cases l <;> simp [blank]

theorem Literal.blank_eq_cmp {l : Literal} {lhs rhs : Arg} {c : Comparison} :
    l.blank = .cmp lhs c rhs ↔
      ∃ lhs' rhs', l = .cmp lhs' c rhs' ∧ lhs'.blank = lhs ∧ rhs'.blank = rhs := by
  cases l with
  | cmp lhs' c' rhs' =>
    simp only [blank, cmp.injEq]
    constructor
    · rintro ⟨rfl, rfl, rfl⟩
      exact ⟨lhs', rhs', ⟨rfl, rfl, rfl⟩, rfl, rfl⟩
    · rintro ⟨_, _, ⟨rfl, rfl, rfl⟩, rfl, rfl⟩
      exact ⟨rfl, rfl, rfl⟩
  | pos | neg => simp [blank]

theorem Arg.blank_eq_var {a : Arg} {x : String} :
    a.blank = .var x ↔ ∃ y, a = .var y ∧ blankName y = x := by
  cases a with
  | var y => simp [blank]
  | const t => simp [blank]

namespace Rule

variable {r : Rule} {x : String}

theorem writable_blank : r.blank.Writable ↔ r.Writable := by
  have hliteral (l : Literal) : l.blank.Named ↔ l.Named := by cases l <;> rfl
  constructor
  · rintro ⟨hnonempty, hhead, hbody⟩
    refine ⟨by simpa [blank] using hnonempty, fun p hp ↦ ?_, fun l hl ↦ ?_⟩
    · exact hhead p.blank (by rw [blank, hp]; rfl)
    · exact (hliteral l).1 (hbody _ (List.mem_map_of_mem hl))
  · rintro ⟨hnonempty, hhead, hbody⟩
    refine ⟨by simpa [blank] using hnonempty, fun p hp ↦ ?_, fun l hl ↦ ?_⟩
    · obtain ⟨q, hq, rfl⟩ := Option.map_eq_some_iff.1 hp
      exact hhead q hq
    · obtain ⟨m, hm, rfl⟩ := List.mem_map.1 hl
      exact (hliteral m).2 (hbody m hm)

theorem binds_blank (hx : isAnonymous x = false) : r.blank.Binds x ↔ r.Binds x := by
  constructor
  · rintro ⟨p, hp, hmem⟩
    obtain ⟨l, hl, heq⟩ := List.mem_map.1 hp
    obtain ⟨q, rfl, rfl⟩ := Literal.blank_eq_pos.1 heq
    exact ⟨q, hl, (Pattern.mem_args_blank_of_named hx).1 hmem⟩
  · rintro ⟨p, hp, hmem⟩
    exact ⟨p.blank, List.mem_map_of_mem hp, (Pattern.mem_args_blank_of_named hx).2 hmem⟩

theorem mem_neededVars : x ∈ r.neededVars ↔
    (∃ p, r.head = some p ∧ x ∈ p.namedVars) ∨ (∃ p, .neg p ∈ r.body ∧ x ∈ p.namedVars) ∨
      ∃ lhs c rhs, .cmp lhs c rhs ∈ r.body ∧ (lhs = .var x ∨ rhs = .var x) := by
  have hside (a : Arg) :
      x ∈ (match a with | .var name => [name] | .const _ => []) ↔ a = .var x := by
    cases a <;> simp [eq_comm]
  simp only [neededVars, Std.ExtTreeSet.mem_ofList, List.contains_iff_mem, List.mem_append,
    List.mem_flatMap]
  refine or_congr ?_ ⟨?_, ?_⟩
  · cases r.head <;> simp
  · rintro ⟨l, hl, hx⟩
    cases l with
    | pos p => cases hx
    | neg p => exact .inl ⟨p, hl, hx⟩
    | cmp lhs c rhs =>
      exact .inr ⟨lhs, c, rhs, hl, (List.mem_append.1 hx).imp (hside lhs).1 (hside rhs).1⟩
  · rintro (⟨p, hp, hx⟩ | ⟨lhs, c, rhs, hl, hx⟩)
    · exact ⟨.neg p, hp, hx⟩
    · exact ⟨_, hl, List.mem_append.2 (hx.imp (hside lhs).2 (hside rhs).2)⟩

theorem unsafeVar?_eq_none_iff : r.unsafeVar? = none ↔
    (∀ p, r.head = some p → p.anonymousVar? = none) ∧
      ∀ x ∈ r.neededVars, r.Binds x ∧ isAnonymous x = false := by
  have hbind : r.head.bind Pattern.anonymousVar? = none ↔
      ∀ p, r.head = some p → p.anonymousVar? = none := by
    cases r.head <;> simp
  have hfind : (r.neededVars.toList.find? fun x ↦ !r.boundVars.contains x) = none ↔
      ∀ x ∈ r.neededVars, r.Binds x ∧ isAnonymous x = false := by
    simp only [List.find?_eq_none, Std.ExtTreeSet.mem_toList, Bool.not_eq_true', Bool.not_eq_false,
      Std.ExtTreeSet.contains_iff_mem, mem_boundVars]
  rw [← hbind, ← hfind, unsafeVar?]
  cases r.head.bind Pattern.anonymousVar? with
  | none => simp
  | some name => simp

theorem mem_neededVars_blank :
    x ∈ r.blank.neededVars ↔ ∃ y ∈ r.neededVars, blankName y = x := by
  simp only [mem_neededVars]
  constructor
  · rintro (⟨p, hp, hx⟩ | ⟨p, hp, hx⟩ | ⟨lhs, c, rhs, hl, hx⟩)
    · obtain ⟨q, hq, rfl⟩ := Option.map_eq_some_iff.1 hp
      rw [Pattern.mem_namedVars_blank] at hx
      exact ⟨x, .inl ⟨q, hq, hx⟩, blankName_of_named (Pattern.mem_namedVars.1 hx).2⟩
    · obtain ⟨l, hl, heq⟩ := List.mem_map.1 hp
      obtain ⟨q, rfl, rfl⟩ := Literal.blank_eq_neg.1 heq
      rw [Pattern.mem_namedVars_blank] at hx
      exact ⟨x, .inr (.inl ⟨q, hl, hx⟩), blankName_of_named (Pattern.mem_namedVars.1 hx).2⟩
    · obtain ⟨l, hmem, heq⟩ := List.mem_map.1 hl
      obtain ⟨lhs, rhs, rfl, rfl, rfl⟩ := Literal.blank_eq_cmp.1 heq
      rcases hx with hx | hx
      · obtain ⟨y, hy, rfl⟩ := Arg.blank_eq_var.1 hx
        exact ⟨y, .inr (.inr ⟨lhs, c, rhs, hmem, .inl hy⟩), rfl⟩
      · obtain ⟨y, hy, rfl⟩ := Arg.blank_eq_var.1 hx
        exact ⟨y, .inr (.inr ⟨lhs, c, rhs, hmem, .inr hy⟩), rfl⟩
  · rintro ⟨y, ⟨p, hp, hy⟩ | ⟨p, hp, hy⟩ | ⟨lhs, c, rhs, hl, hy⟩, rfl⟩
    · rw [blankName_of_named (Pattern.mem_namedVars.1 hy).2]
      exact .inl ⟨p.blank, congrArg (Option.map _) hp, Pattern.mem_namedVars_blank.2 hy⟩
    · rw [blankName_of_named (Pattern.mem_namedVars.1 hy).2]
      exact .inr (.inl ⟨p.blank, List.mem_map_of_mem hp, Pattern.mem_namedVars_blank.2 hy⟩)
    · refine .inr (.inr ⟨lhs.blank, c, rhs.blank, List.mem_map_of_mem hl, ?_⟩)
      exact hy.imp (fun h ↦ by rw [h]; rfl) fun h ↦ by rw [h]; rfl

/-- A rule is safe if it is without the names of its anonymous variables. -/
theorem unsafeVar?_blank : r.blank.unsafeVar? = none ↔ r.unsafeVar? = none := by
  rw [unsafeVar?_eq_none_iff, unsafeVar?_eq_none_iff]
  refine and_congr ?_ ?_
  · cases hr : r.head with
    | none => simp [blank, hr]
    | some p => simp [blank, hr, Pattern.anonymousVar?_blank]
  · constructor
    · intro h x hx
      obtain ⟨hbinds, hnamed⟩ := h _ (mem_neededVars_blank.2 ⟨x, hx, rfl⟩)
      rw [isAnonymous_blankName] at hnamed
      rw [blankName_of_named hnamed, binds_blank hnamed] at hbinds
      exact ⟨hbinds, hnamed⟩
    · intro h x hx
      obtain ⟨y, hy, rfl⟩ := mem_neededVars_blank.1 hx
      obtain ⟨hbinds, hnamed⟩ := h y hy
      rw [blankName_of_named hnamed, binds_blank hnamed]
      exact ⟨hbinds, hnamed⟩

end Rule

/-! ## Reading -/

/-- Tokens that differ from those of rules in names only spell rules that differ in these names and
in their lines. -/
theorem exists_spelling_of_blank {ts : List Located} {rs : List Rule}
    (h : (ts.map Located.token).map Token.blank = (rs.flatMap Rule.tokens).map Token.blank)
    (hwritable : ∀ r ∈ rs, r.Writable) :
    ∃ ss, Spelling ts ss ∧ ss.map Rule.blank = rs.map Rule.blank := by
  induction rs generalizing ts with
  | nil =>
    rw [List.flatMap_nil, List.map_nil, List.map_eq_nil_iff, List.map_eq_nil_iff] at h
    exact ⟨[], Grammar.spelling_nil.2 h, rfl⟩
  | cons r rs ih =>
    obtain ⟨hr, hrs⟩ := List.forall_mem_cons.1 hwritable
    obtain ⟨front, behind, hts, hfront, hbehind⟩ := exists_append_of_blank h
    obtain ⟨part, rest, rfl, rfl, rfl⟩ := List.map_eq_append_iff.1 hts
    obtain ⟨ss, hss, hblank⟩ := ih hbehind hrs
    obtain ⟨t, part, rfl⟩ : ∃ t part', part = t :: part' := by
      refine List.exists_cons_of_ne_nil ?_
      rintro rfl
      simp [Rule.tokens] at hfront
    obtain ⟨s, htokens, hs, hline⟩ := r.exists_of_blank t.line hfront
    have hspelled : s.SpelledBy (t :: part) := ⟨htokens.symm, congrArg some hline.symm⟩
    have hwritten : s.Writable := by rwa [← Rule.writable_blank, hs, Rule.writable_blank]
    have hread : Grammar.statement 0 (t :: part ++ rest) = .ok (s, rest) :=
      Grammar.statement_eq_ok_iff.2 ⟨hwritten, _, rfl, hspelled⟩
    exact ⟨s :: ss, (Grammar.spelling_cons 0).2 ⟨rest, hread, hss⟩,
      by rw [List.map_cons, hs, hblank, List.map_cons]⟩

/-- A text with the tokens of safe rules, names of anonymous variables apart, is a program of such
rules. -/
theorem parseProgram_of_blank {text : String} {ts : List Located} {rs : List Rule}
    (htokens : tokens text = .ok ts)
    (h : (ts.map Located.token).map Token.blank = (rs.flatMap Rule.tokens).map Token.blank)
    (hwritable : ∀ r ∈ rs, r.Writable) (hsafe : ∀ r ∈ rs, r.unsafeVar? = none) :
    ∃ ss, parseProgram text = .ok ss ∧ ss.map Rule.blank = rs.map Rule.blank := by
  obtain ⟨ss, hss, hblank⟩ := exists_spelling_of_blank h hwritable
  refine ⟨ss, parseProgram_eq_ok_iff.2 ⟨ts, htokens, hss, fun s hs ↦ ?_⟩, hblank⟩
  obtain ⟨r, hr, heq⟩ : ∃ r ∈ rs, r.blank = s.blank :=
    List.mem_map.1 (hblank ▸ List.mem_map_of_mem hs)
  rw [← Rule.unsafeVar?_blank, ← heq, Rule.unsafeVar?_blank]
  exact hsafe r hr

/-! ## Texts one behind the other -/

/-- What is written in the text are safe rules, if names of anonymous variables do not matter. -/
def Holds (cs : List Char) (rs : List Rule) : Prop :=
  (∃ ks, Writes cs ks ∧ ks.map Token.blank = (rs.flatMap Rule.tokens).map Token.blank) ∧
    ∀ r ∈ rs, r.Writable ∧ r.unsafeVar? = none

section Holds

variable {cs ds : List Char} {rs ss : List Rule} {text : String}

/-- A program holds its rules. -/
theorem holds_of_parseProgram (h : parseProgram text = .ok rs) : Holds text.toList rs := by
  obtain ⟨ts, htokens, hspelling, hsafe⟩ := parseProgram_eq_ok_iff.1 h
  refine ⟨⟨_, writes_of_tokens htokens, ?_⟩, fun r hr ↦ ⟨hspelling.2 r hr, hsafe r hr⟩⟩
  rw [← hspelling.map_token, token_of_tokens htokens, map_blank_number]

/-- A text that holds rules is a program of such rules. -/
theorem Holds.exists_parseProgram (h : Holds text.toList rs) :
    ∃ ss, parseProgram text = .ok ss ∧ ss.map Rule.blank = rs.map Rule.blank := by
  obtain ⟨⟨ks, hks, hblank⟩, hrules⟩ := h
  obtain ⟨ts, htokens, hnumber⟩ := hks.exists_tokens
  refine parseProgram_of_blank htokens ?_ (fun r hr ↦ (hrules r hr).1) fun r hr ↦ (hrules r hr).2
  rw [hnumber, map_blank_number, hblank]

theorem Writes.holds (h : Writes cs []) : Holds cs [] := ⟨⟨[], h, rfl⟩, nofun⟩

/-- **Rules on other lines stand behind**, whatever becomes of the numbers of anonymous
variables. -/
theorem Holds.line (h : Holds cs rs) (h' : Holds ds ss) :
    Holds (cs ++ '\n' :: ds) (rs ++ ss) := by
  obtain ⟨⟨ks, hks, hblank⟩, hrules⟩ := h
  obtain ⟨⟨ms, hms, hblank'⟩, hrules'⟩ := h'
  refine ⟨⟨ks ++ ms, hks.line hms, ?_⟩, fun r hr ↦ ?_⟩
  · rw [List.map_append, hblank, hblank', List.flatMap_append, List.map_append]
  · exact (List.mem_append.1 hr).elim (hrules r) (hrules' r)

theorem Holds.of_lineEnd (h : Holds (cs ++ ['\n']) rs) : Holds cs rs := by
  obtain ⟨⟨ks, hks, hblank⟩, hrules⟩ := h
  exact ⟨⟨ks, hks.of_lineEnd, hblank⟩, hrules⟩

end Holds

end RightOfWay
