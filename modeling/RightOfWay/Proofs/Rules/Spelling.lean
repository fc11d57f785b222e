import Mathlib.Data.List.Forall2
import RightOfWay.Proofs.Rules.LineShift

/-!
# How rules are spelled

Every rule that the grammar gives is spelled by one list of tokens (`Rule.tokens`), and the readers
take apart these lists and no others.

* `Begins` says that tokens stand in front of others.  A reader gives a thing if and only if the
  spelling of this thing stands in front.  Some readers look one token further: a term ends where no
  bracket follows, and a literal in front of a comma or a period.
* A symbol can start a comparison or an atom, and the token behind it tells which.  That is enough:
  what follows the symbol in the spelling of an atom is a bracket, a comma, a period or the sign
  between head and body (`literal_of_begins`).
* `statements_eq_iff` puts this together for lists of rules.
-/

set_option autoImplicit false

namespace RightOfWay

/-! ## Spellings -/

/-- The token that an argument is written as. -/
def Arg.token : Arg → Token
  | .var name => .var name
  | .const (.symbol text) => .symbol text
  | .const (.int value) => .int value

/-- The tokens between the brackets of an atom. -/
def Arg.listTokens (as : List Arg) : List Token :=
  [Token.comma].intercalate (as.map fun a ↦ [a.token])

theorem Arg.listTokens_singleton (a : Arg) : listTokens [a] = [a.token] :=
  List.intercalate_singleton

theorem Arg.listTokens_cons {as : List Arg} (h : as ≠ []) (a : Arg) :
    listTokens (a :: as) = a.token :: .comma :: listTokens as :=
  List.intercalate_cons_of_ne_nil (by simpa using h)

namespace Pattern

/-- An atom: a name, and terms in brackets if there are any. -/
def tokens (p : Pattern) : List Token :=
  .symbol p.predicate ::
    if p.args = [] then [] else .openParen :: Arg.listTokens p.args ++ [.closeParen]

/-- The predicate is not a quoted string. -/
def Named (p : Pattern) : Prop := p.predicate.toList.head? ≠ some '"'

instance (p : Pattern) : Decidable p.Named := inferInstanceAs (Decidable (_ ≠ _))

end Pattern

namespace Literal

/-- A negated atom, a comparison or an atom. -/
def tokens : Literal → List Token
  | pos p => p.tokens
  | neg p => .negation :: p.tokens
  | cmp lhs c rhs => [lhs.token, .comparison c, rhs.token]

/-- The predicate, if there is one, is not a quoted string. -/
def Named : Literal → Prop
  | pos p | neg p => p.Named
  | cmp .. => True

instance : (l : Literal) → Decidable l.Named
  | pos p | neg p => inferInstanceAs (Decidable p.Named)
  | cmp .. => .isTrue trivial

/-- Literals between commas. -/
def listTokens (ls : List Literal) : List Token := [Token.comma].intercalate (ls.map tokens)

theorem listTokens_singleton (l : Literal) : listTokens [l] = l.tokens :=
  List.intercalate_singleton

theorem listTokens_cons {ls : List Literal} (h : ls ≠ []) (l : Literal) :
    listTokens (l :: ls) = l.tokens ++ .comma :: listTokens ls := by
  rw [listTokens, List.map_cons, List.intercalate_cons_of_ne_nil (by simpa using h),
    List.append_assoc]
  rfl

end Literal

namespace Rule

/-- A fact, a rule or a constraint. -/
def tokens (r : Rule) : List Token :=
  (r.head.map Pattern.tokens).getD [] ++
    (if r.body = [] then [] else .provided :: Literal.listTokens r.body) ++ [.period]

/-- The rule has a head or a body, and all predicates in it are names. -/
structure Writable (r : Rule) : Prop where
  nonempty : r.head.isSome ∨ r.body ≠ []
  head : ∀ p, r.head = some p → p.Named
  body : ∀ l ∈ r.body, l.Named

instance (r : Rule) : Decidable r.Writable :=
  decidable_of_iff ((r.head.isSome ∨ r.body ≠ []) ∧ (∀ p ∈ r.head, p.Named) ∧ ∀ l ∈ r.body, l.Named)
    ⟨fun ⟨hnonempty, hhead, hbody⟩ ↦ ⟨hnonempty, hhead, hbody⟩,
      fun h ↦ ⟨h.nonempty, h.head, h.body⟩⟩

/-- The tokens are the rule's, and the first one stands on its line. -/
def SpelledBy (part : List Located) (r : Rule) : Prop :=
  part.map Located.token = r.tokens ∧ part.head?.map Located.line = some r.line

end Rule

/-- The tokens are those of the rules, one after the other, and all rules can be written. -/
def Spelling (ts : List Located) (rs : List Rule) : Prop :=
  (∃ parts, ts = parts.flatten ∧ List.Forall₂ Rule.SpelledBy parts rs) ∧ ∀ r ∈ rs, r.Writable

theorem Spelling.map_token {ts : List Located} {rs : List Rule} (h : Spelling ts rs) :
    ts.map Located.token = rs.flatMap Rule.tokens := by
  obtain ⟨⟨parts, rfl, hparts⟩, -⟩ := h
  induction hparts with
  | nil => rfl
  | cons hpart _ ih => rw [List.flatten_cons, List.map_append, hpart.1, ih, List.flatMap_cons]

namespace Grammar

variable {last line : Nat} {ts rest : List Located} {t : Located} {k : Token} {ks ks' : List Token}

/-! ## Tokens in front -/

/-- The tokens stand in front, and the rest behind them. -/
def Begins (ts : List Located) (ks : List Token) (rest : List Located) : Prop :=
  ∃ part, ts = part ++ rest ∧ part.map Located.token = ks

@[simp] theorem begins_nil : Begins ts [] rest ↔ ts = rest := by
  simp [Begins]

@[simp] theorem not_begins_cons : ¬ Begins [] (k :: ks) rest := by
  rintro ⟨part, hts, hpart⟩
  rw [eq_comm, List.append_eq_nil_iff] at hts
  rw [hts.1] at hpart
  cases hpart

@[simp] theorem begins_cons_cons :
    Begins (t :: ts) (k :: ks) rest ↔ t.token = k ∧ Begins ts ks rest := by
  constructor
  · rintro ⟨part, hts, hpart⟩
    obtain ⟨t', part, rfl, rfl, rfl⟩ := List.map_eq_cons_iff.1 hpart
    obtain ⟨rfl, rfl⟩ := List.cons.inj hts
    exact ⟨rfl, part, rfl, rfl⟩
  · rintro ⟨rfl, part, rfl, rfl⟩
    exact ⟨t :: part, rfl, rfl⟩

theorem begins_cons_iff_exists :
    Begins ts (k :: ks) rest ↔ ∃ place ts', ts = ⟨k, place⟩ :: ts' ∧ Begins ts' ks rest := by
  rcases ts with _ | ⟨⟨k', place⟩, ts⟩
  · simp
  · simp [eq_comm]

theorem begins_append :
    Begins ts (ks ++ ks') rest ↔ ∃ mid, Begins ts ks mid ∧ Begins mid ks' rest := by
  constructor
  · rintro ⟨part, rfl, hpart⟩
    obtain ⟨first, second, rfl, rfl, rfl⟩ := List.map_eq_append_iff.1 hpart
    exact ⟨second ++ rest, ⟨first, List.append_assoc .., rfl⟩, second, rfl, rfl⟩
  · rintro ⟨mid, ⟨first, rfl, rfl⟩, second, rfl, rfl⟩
    exact ⟨first ++ second, (List.append_assoc ..).symm, List.map_append⟩

/-- The next token is not an opening bracket. -/
def Unbracketed (ts : List Located) : Prop := ts.head?.map Located.token ≠ some .openParen

/-- The next token ends a literal. -/
def EndsLiteral (ts : List Located) : Prop :=
  ts.head?.map Located.token = some .comma ∨ ts.head?.map Located.token = some .period

theorem EndsLiteral.unbracketed (h : EndsLiteral ts) : Unbracketed ts := by
  rw [Unbracketed]
  rcases h with h | h <;> simp [h]

/-! ## Terms and atoms -/

theorem argOfToken?_eq_some {a : Arg} : argOfToken? k = some a ↔ k = a.token := by
  constructor
  · intro h
    cases k with
    | var | symbol | int =>
      cases h
      rfl
    | _ => cases h
  · rintro rfl
    rcases a with name | (value | text) <;> rfl

theorem arg_eq_ok_iff {a : Arg} :
    arg last ts = .ok (a, rest) ↔ Begins ts [a.token] rest ∧ Unbracketed rest := by
  cases ts with
  | nil => simp [arg]
  | cons t ts =>
    rw [begins_cons_cons, begins_nil, ← argOfToken?_eq_some, arg]
    cases argOfToken? t.token with
    | none => simp
    | some b =>
      dsimp only
      by_cases hopen : ts.head?.map Located.token = some .openParen
      · rw [if_pos hopen]
        refine iff_of_false (by simp) ?_
        rintro ⟨⟨-, rfl⟩, hrest⟩
        exact hrest hopen
      · rw [if_neg hopen, Except.ok.injEq, Prod.mk.injEq, Option.some_inj]
        refine (and_iff_left_of_imp ?_).symm
        rintro ⟨-, rfl⟩
        exact hopen

theorem args_sound {as : List Arg} (h : args last line ts = .ok (as, rest)) :
    as ≠ [] ∧ Begins ts (Arg.listTokens as ++ [.closeParen]) rest := by
  fun_induction args last line ts generalizing as with
  | case1 => cases h
  | case2 => cases h
  | case3 t a mid place ts harg ih =>
    obtain ⟨as, has, rfl⟩ := Reading.as_eq_ok_iff.1 h
    obtain ⟨hne, hbegins⟩ := ih has
    obtain ⟨hfirst, -⟩ := arg_eq_ok_iff.1 harg
    rw [begins_cons_cons] at hfirst
    rw [Arg.listTokens_cons hne]
    exact ⟨List.cons_ne_nil _ _, by simp [hfirst.1, hbegins]⟩
  | case4 t a mid place ts harg =>
    cases h
    obtain ⟨hfirst, -⟩ := arg_eq_ok_iff.1 harg
    rw [begins_cons_cons] at hfirst
    rw [Arg.listTokens_singleton]
    exact ⟨List.cons_ne_nil _ _, by simp [hfirst.1]⟩
  | case5 => cases h

theorem args_of_begins {as : List Arg} (hne : as ≠ [])
    (h : Begins ts (Arg.listTokens as ++ [.closeParen]) rest) :
    args last line ts = .ok (as, rest) := by
  have harg : ∀ (a : Arg) (place : Nat) (t : Located) (ts : List Located), t.token ≠ .openParen →
      arg last (⟨a.token, place⟩ :: t :: ts) = .ok (a, t :: ts) :=
    fun a place t ts ht ↦ arg_eq_ok_iff.2 ⟨by simp, by simpa [Unbracketed] using ht⟩
  induction as generalizing ts with
  | nil => exact absurd rfl hne
  | cons a as ih =>
    by_cases has : as = []
    · rw [has, Arg.listTokens_singleton] at h
      obtain ⟨place, ts₁, rfl, hclose⟩ := begins_cons_iff_exists.1 h
      obtain ⟨place', ts₂, rfl, hrest⟩ := begins_cons_iff_exists.1 hclose
      rw [args, harg a place ⟨.closeParen, place'⟩ ts₂ (by simp), has, begins_nil.1 hrest]
    · rw [Arg.listTokens_cons has] at h
      obtain ⟨place, ts₁, rfl, hcomma⟩ := begins_cons_iff_exists.1 h
      obtain ⟨place', ts₂, rfl, hrest⟩ := begins_cons_iff_exists.1 hcomma
      rw [args, harg a place ⟨.comma, place'⟩ ts₂ (by simp)]
      exact Reading.as_eq_ok_iff.2 ⟨as, ih has hrest, rfl⟩

theorem args_eq_ok_iff {as : List Arg} : args last line ts = .ok (as, rest) ↔
    as ≠ [] ∧ Begins ts (Arg.listTokens as ++ [.closeParen]) rest :=
  ⟨args_sound, fun h ↦ args_of_begins h.1 h.2⟩

theorem predicateOfToken?_eq_some {text : String} :
    predicateOfToken? k = some text ↔ k = .symbol text ∧ text.toList.head? ≠ some '"' := by
  cases k with
  | symbol text' =>
    rw [predicateOfToken?, Token.symbol.injEq]
    split
    · rename_i hquote
      refine iff_of_false nofun ?_
      rintro ⟨rfl, h⟩
      exact h hquote
    · rename_i hquote
      rw [Option.some_inj, iff_self_and]
      rintro rfl
      exact hquote
  | _ => exact iff_of_false nofun nofun

theorem pattern_of_bracket {text : String} (h : predicateOfToken? t.token = some text) :
    pattern last (t :: ⟨.openParen, line⟩ :: ts) = (args last t.line ts).as (⟨text, ·⟩) := by
  rw [pattern, h]

theorem pattern_of_unbracketed {text : String} (h : predicateOfToken? t.token = some text)
    (hts : Unbracketed ts) : pattern last (t :: ts) = .ok (⟨text, []⟩, ts) := by
  rw [pattern, h]
  rcases ts with _ | ⟨⟨token, place⟩, ts⟩
  · rfl
  · cases token with
    | openParen => exact absurd rfl hts
    | _ => rfl

theorem pattern_sound {p : Pattern} (h : pattern last ts = .ok (p, rest)) :
    p.Named ∧ Begins ts p.tokens rest ∧ (p.args = [] → Unbracketed rest) := by
  rcases ts with _ | ⟨t, ts⟩
  · cases h
  cases hread : predicateOfToken? t.token with
  | none =>
    rw [pattern, hread] at h
    cases h
  | some text =>
  obtain ⟨htoken, hnamed⟩ := predicateOfToken?_eq_some.1 hread
  by_cases hts : Unbracketed ts
  · rw [pattern_of_unbracketed hread hts] at h
    cases h
    exact ⟨hnamed, by simp [Pattern.tokens, htoken], fun _ ↦ hts⟩
  · rcases ts with _ | ⟨⟨token, place⟩, ts⟩
    · exact absurd (by simp [Unbracketed]) hts
    · obtain rfl : token = .openParen := by simpa [Unbracketed] using hts
      rw [pattern_of_bracket hread] at h
      obtain ⟨as, has, rfl⟩ := Reading.as_eq_ok_iff.1 h
      obtain ⟨hne, hbegins⟩ := args_eq_ok_iff.1 has
      exact ⟨hnamed, by simp [Pattern.tokens, htoken, hne, hbegins], fun hnil ↦ absurd hnil hne⟩

theorem pattern_of_begins {p : Pattern} (hnamed : p.Named) (h : Begins ts p.tokens rest)
    (hrest : p.args = [] → Unbracketed rest) : pattern last ts = .ok (p, rest) := by
  obtain ⟨predicate, as⟩ := p
  obtain ⟨place, ts, rfl, htail⟩ := begins_cons_iff_exists.1 h
  have hread : predicateOfToken? (.symbol predicate) = some predicate :=
    predicateOfToken?_eq_some.2 ⟨rfl, hnamed⟩
  by_cases has : as = []
  · rw [if_pos has, begins_nil] at htail
    rw [has, pattern_of_unbracketed hread (htail ▸ hrest has), htail]
  · rw [if_neg has] at htail
    obtain ⟨place', ts', rfl, hargs⟩ := begins_cons_iff_exists.1 htail
    rw [pattern_of_bracket hread]
    exact Reading.as_eq_ok_iff.2 ⟨as, args_eq_ok_iff.2 ⟨has, hargs⟩, rfl⟩

/-! ## Literals -/

theorem comparison_sound {l : Literal} (h : comparison last ts = .ok (l, rest)) :
    l.Named ∧ Begins ts l.tokens rest := by
  unfold comparison at h
  split at h
  · cases h
  · rename_i lhs mid hlhs
    split at h
    · rename_i c place mid
      obtain ⟨rhs, hrhs, rfl⟩ := Reading.as_eq_ok_iff.1 h
      refine ⟨trivial, begins_append.2 ⟨_, (arg_eq_ok_iff.1 hlhs).1, ?_⟩⟩
      exact begins_cons_cons.2 ⟨rfl, (arg_eq_ok_iff.1 hrhs).1⟩
    · cases h

theorem comparison_of_begins {lhs rhs : Arg} {c : Comparison}
    (h : Begins ts (Literal.cmp lhs c rhs).tokens rest) (hrest : Unbracketed rest) :
    comparison last ts = .ok (.cmp lhs c rhs, rest) := by
  obtain ⟨place, ts₁, rfl, hsign⟩ := begins_cons_iff_exists.1 h
  obtain ⟨place', ts₂, rfl, hrhs⟩ := begins_cons_iff_exists.1 hsign
  have hlhs : arg last (⟨lhs.token, place⟩ :: ⟨.comparison c, place'⟩ :: ts₂) =
      .ok (lhs, ⟨.comparison c, place'⟩ :: ts₂) := arg_eq_ok_iff.2 ⟨by simp, nofun⟩
  rw [comparison, hlhs]
  exact Reading.as_eq_ok_iff.2 ⟨rhs, arg_eq_ok_iff.2 ⟨hrhs, hrest⟩, rfl⟩

theorem literal_sound {l : Literal} (h : literal last ts = .ok (l, rest)) :
    l.Named ∧ Begins ts l.tokens rest := by
  unfold literal at h
  split at h
  · obtain ⟨p, hp, rfl⟩ := Reading.as_eq_ok_iff.1 h
    obtain ⟨hnamed, hbegins, -⟩ := pattern_sound hp
    exact ⟨hnamed, begins_cons_cons.2 ⟨rfl, hbegins⟩⟩
  · split at h
    · exact comparison_sound h
    · obtain ⟨p, hp, rfl⟩ := Reading.as_eq_ok_iff.1 h
      obtain ⟨hnamed, hbegins, -⟩ := pattern_sound hp
      exact ⟨hnamed, hbegins⟩

theorem startsComparison_of_cmp {lhs rhs : Arg} {c : Comparison}
    (h : Begins ts (Literal.cmp lhs c rhs).tokens rest) : startsComparison ts = true := by
  obtain ⟨place, ts₁, rfl, hsign⟩ := begins_cons_iff_exists.1 h
  obtain ⟨place', ts₂, rfl, -⟩ := begins_cons_iff_exists.1 hsign
  rcases lhs with name | (value | text) <;> rfl

/-- One token behind the name is enough to tell an atom from a comparison. -/
theorem startsComparison_of_pattern {p : Pattern} (h : Begins ts p.tokens rest)
    (hrest : EndsLiteral rest) : startsComparison ts = false := by
  obtain ⟨predicate, as⟩ := p
  obtain ⟨place, ts, rfl, htail⟩ := begins_cons_iff_exists.1 h
  by_cases has : as = []
  · rw [if_pos has, begins_nil] at htail
    subst htail
    rcases ts with _ | ⟨⟨token, place'⟩, ts⟩
    · rfl
    · rcases hrest with hcomma | hperiod
      · obtain rfl : token = .comma := by simpa using hcomma
        rfl
      · obtain rfl : token = .period := by simpa using hperiod
        rfl
  · rw [if_neg has] at htail
    obtain ⟨place', ts', rfl, -⟩ := begins_cons_iff_exists.1 htail
    rfl

/-- A literal is read wherever it is spelled in front of a comma or a period. -/
theorem literal_of_begins {l : Literal} (hnamed : l.Named) (h : Begins ts l.tokens rest)
    (hrest : EndsLiteral rest) : literal last ts = .ok (l, rest) := by
  cases l with
  | neg p =>
    obtain ⟨place, ts, rfl, hp⟩ := begins_cons_iff_exists.1 h
    exact Reading.as_eq_ok_iff.2
      ⟨p, pattern_of_begins hnamed hp fun _ ↦ hrest.unbracketed, rfl⟩
  | pos p =>
    have hstarts := startsComparison_of_pattern h hrest
    obtain ⟨place, ts, rfl, -⟩ := begins_cons_iff_exists.1 h
    have hnegation : Token.symbol p.predicate ≠ .negation := nofun
    rw [literal_of_ne_negation last hnegation, hstarts, if_neg Bool.false_ne_true]
    exact Reading.as_eq_ok_iff.2 ⟨p, pattern_of_begins hnamed h fun _ ↦ hrest.unbracketed, rfl⟩
  | cmp lhs c rhs =>
    have hstarts := startsComparison_of_cmp h
    obtain ⟨place, ts, rfl, -⟩ := begins_cons_iff_exists.1 h
    have hnegation : lhs.token ≠ .negation := by
      rcases lhs with name | (value | text) <;> nofun
    rw [literal_of_ne_negation last hnegation, hstarts, if_pos rfl]
    exact comparison_of_begins h hrest.unbracketed

/-! ## Rules -/

theorem period_eq_ok_iff {u : Unit} :
    period last ts = .ok (u, rest) ↔ Begins ts [.period] rest := by
  rcases ts with _ | ⟨⟨token, place⟩, ts⟩
  · simp [period]
  · cases token with
    | period => simp [period]
    | _ => simp [period]

theorem body_sound {ls : List Literal} (h : body last ts = .ok (ls, rest)) :
    ls ≠ [] ∧ (∀ l ∈ ls, l.Named) ∧ Begins ts (Literal.listTokens ls ++ [.period]) rest := by
  fun_induction body last ts generalizing ls with
  | case1 => cases h
  | case2 ts l place mid hl ih =>
    obtain ⟨ls, hls, rfl⟩ := Reading.as_eq_ok_iff.1 h
    obtain ⟨hne, hnamed, hbegins⟩ := ih hls
    obtain ⟨hfirst, hl⟩ := literal_sound hl
    rw [Literal.listTokens_cons hne, List.append_assoc]
    refine ⟨List.cons_ne_nil _ _, List.forall_mem_cons.2 ⟨hfirst, hnamed⟩, ?_⟩
    exact begins_append.2 ⟨_, hl, begins_cons_cons.2 ⟨rfl, hbegins⟩⟩
  | case3 ts l mid hcomma hl =>
    obtain ⟨u, hperiod, rfl⟩ := Reading.as_eq_ok_iff.1 h
    obtain ⟨hfirst, hl⟩ := literal_sound hl
    rw [Literal.listTokens_singleton]
    refine ⟨List.cons_ne_nil _ _, by simpa using hfirst, ?_⟩
    exact begins_append.2 ⟨_, hl, period_eq_ok_iff.1 hperiod⟩

theorem body_of_begins {ls : List Literal} (hne : ls ≠ []) (hnamed : ∀ l ∈ ls, l.Named)
    (h : Begins ts (Literal.listTokens ls ++ [.period]) rest) :
    body last ts = .ok (ls, rest) := by
  induction ls generalizing ts with
  | nil => exact absurd rfl hne
  | cons l ls ih =>
    obtain ⟨hfirst, hnamed⟩ := List.forall_mem_cons.1 hnamed
    by_cases hls : ls = []
    · rw [hls, Literal.listTokens_singleton] at h
      obtain ⟨mid, hl, hperiod⟩ := begins_append.1 h
      obtain ⟨place, mid, rfl, -⟩ := begins_cons_iff_exists.1 hperiod
      have hread : literal last ts = .ok (l, ⟨.period, place⟩ :: mid) :=
        literal_of_begins hfirst hl (.inr rfl)
      rw [body_of_end hread nofun]
      exact Reading.as_eq_ok_iff.2 ⟨(), period_eq_ok_iff.2 hperiod, by rw [hls]⟩
    · rw [Literal.listTokens_cons hls, List.append_assoc] at h
      obtain ⟨mid, hl, hcomma⟩ := begins_append.1 h
      obtain ⟨place, mid, rfl, hrest⟩ := begins_cons_iff_exists.1 hcomma
      have hread : literal last ts = .ok (l, ⟨.comma, place⟩ :: mid) :=
        literal_of_begins hfirst hl (.inl rfl)
      rw [body_of_comma hread]
      exact Reading.as_eq_ok_iff.2 ⟨ls, ih hls hnamed hrest, rfl⟩

theorem body_eq_ok_iff {ls : List Literal} : body last ts = .ok (ls, rest) ↔
    ls ≠ [] ∧ (∀ l ∈ ls, l.Named) ∧ Begins ts (Literal.listTokens ls ++ [.period]) rest :=
  ⟨body_sound, fun ⟨hne, hnamed, h⟩ ↦ body_of_begins hne hnamed h⟩

theorem statement_sound {r : Rule} (h : statement last ts = .ok (r, rest)) :
    r.Writable ∧ Begins ts r.tokens rest ∧ ts.head?.map Located.line = some r.line := by
  rcases ts with _ | ⟨t, ts⟩
  · cases h
  by_cases hprovided : t.token = .provided
  · obtain ⟨token, place⟩ := t
    cases hprovided
    obtain ⟨ls, hls, rfl⟩ := Reading.as_eq_ok_iff.1 h
    obtain ⟨hne, hnamed, hbegins⟩ := body_eq_ok_iff.1 hls
    refine ⟨⟨.inr hne, nofun, hnamed⟩, ?_, rfl⟩
    simp [Rule.tokens, hne, hbegins]
  · rw [statement_of_ne_provided hprovided] at h
    split at h
    · cases h
    · rename_i head place mid hhead
      cases h
      obtain ⟨hnamed, hbegins, -⟩ := pattern_sound hhead
      refine ⟨⟨.inl rfl, by simpa using hnamed, nofun⟩, ?_, rfl⟩
      exact begins_append.2 ⟨_, by simpa using hbegins, by simp⟩
    · rename_i head place mid hhead
      obtain ⟨ls, hls, rfl⟩ := Reading.as_eq_ok_iff.1 h
      obtain ⟨hnamed, hbegins, -⟩ := pattern_sound hhead
      obtain ⟨hne, hbody, hrest⟩ := body_eq_ok_iff.1 hls
      refine ⟨⟨.inl rfl, by simpa using hnamed, hbody⟩, ?_, rfl⟩
      rw [Rule.tokens, List.append_assoc]
      exact begins_append.2 ⟨_, hbegins, by simp [hne, hrest]⟩
    · cases h

theorem statement_of_begins {r : Rule} (hwritable : r.Writable) (h : Begins ts r.tokens rest)
    (hline : ts.head?.map Located.line = some r.line) : statement last ts = .ok (r, rest) := by
  obtain ⟨head, body, line⟩ := r
  cases head with
  | none =>
    have hne : body ≠ [] := by simpa using hwritable.nonempty
    rw [Rule.tokens, if_neg hne] at h
    obtain ⟨place, ts, rfl, hbody⟩ := begins_cons_iff_exists.1 h
    obtain rfl : place = line := by simpa using hline
    exact Reading.as_eq_ok_iff.2
      ⟨body, body_eq_ok_iff.2 ⟨hne, hwritable.body, hbody⟩, rfl⟩
  | some p =>
    rw [Rule.tokens, List.append_assoc] at h
    obtain ⟨mid, hp, hrest⟩ := begins_append.1 h
    have hnamed := hwritable.head p rfl
    obtain ⟨place, ts, rfl, -⟩ := begins_cons_iff_exists.1 hp
    obtain rfl : place = line := by simpa using hline
    have hprovided : Token.symbol p.predicate ≠ .provided := nofun
    have hhead (hmid : Unbracketed mid) :
        pattern last (⟨.symbol p.predicate, place⟩ :: ts) = .ok (p, mid) :=
      pattern_of_begins hnamed hp fun _ ↦ hmid
    rw [statement_of_ne_provided hprovided]
    -- a period or the sign for "if" is next, so the head is not read on as a list of arguments
    by_cases hbody : body = []
    · subst hbody
      obtain ⟨place', mid, rfl, hmid⟩ := begins_cons_iff_exists.1 hrest
      rw [hhead nofun, begins_nil.1 hmid]
    · simp only [if_neg hbody] at hrest
      obtain ⟨place', mid, rfl, hmid⟩ := begins_cons_iff_exists.1 hrest
      rw [hhead nofun]
      exact Reading.as_eq_ok_iff.2
        ⟨body, body_eq_ok_iff.2 ⟨hbody, hwritable.body, hmid⟩, rfl⟩

theorem statement_eq_ok_iff {r : Rule} : statement last ts = .ok (r, rest) ↔
    r.Writable ∧ ∃ part, ts = part ++ rest ∧ r.SpelledBy part := by
  have hhead : ∀ part : List Located, part.map Located.token = r.tokens →
      (part ++ rest).head? = part.head? := by
    intro part hpart
    have hne : part ≠ [] := by
      rintro rfl
      simp [Rule.tokens] at hpart
    rw [List.head?_append_of_ne_nil _ hne]
  constructor
  · intro h
    obtain ⟨hwritable, ⟨part, rfl, hpart⟩, hline⟩ := statement_sound h
    rw [hhead part hpart] at hline
    exact ⟨hwritable, part, rfl, hpart, hline⟩
  · rintro ⟨hwritable, part, rfl, hpart, hline⟩
    rw [← hhead part hpart] at hline
    exact statement_of_begins hwritable ⟨part, rfl, hpart⟩ hline

/-! ## Lists of rules -/

theorem spelling_nil : Spelling ts [] ↔ ts = [] := by
  constructor
  · rintro ⟨⟨parts, rfl, hparts⟩, -⟩
    cases hparts
    rfl
  · rintro rfl
    exact ⟨⟨[], rfl, .nil⟩, nofun⟩

theorem spelling_cons (last : Nat) {r : Rule} {rs : List Rule} : Spelling ts (r :: rs) ↔
    ∃ rest, statement last ts = .ok (r, rest) ∧ Spelling rest rs := by
  simp only [statement_eq_ok_iff]
  constructor
  · rintro ⟨⟨_, rfl, hparts⟩, hwritable⟩
    obtain ⟨hfirst, hrest⟩ := List.forall_mem_cons.1 hwritable
    cases hparts with
    | cons hpart hparts => exact ⟨_, ⟨hfirst, _, rfl, hpart⟩, ⟨_, rfl, hparts⟩, hrest⟩
  · rintro ⟨_, ⟨hfirst, part, rfl, hpart⟩, ⟨parts, rfl, hparts⟩, hrest⟩
    exact ⟨⟨part :: parts, rfl, .cons hpart hparts⟩, List.forall_mem_cons.2 ⟨hfirst, hrest⟩⟩

theorem statements_eq_cons_iff {r : Rule} {rs : List Rule} {fault : Option SyntaxError} :
    statements last ts = (r :: rs, fault) ↔
      ∃ rest, statement last ts = .ok (r, rest) ∧ statements last rest = (rs, fault) := by
  rcases ts with _ | ⟨t, ts⟩
  · rw [statements_nil]
    exact iff_of_false nofun nofun
  cases h : statement last (t :: ts) with
  | error e =>
    rw [statements_of_error h]
    exact iff_of_false nofun nofun
  | ok s =>
    obtain ⟨r', rest⟩ := s
    simp [statements_of_ok h, Prod.ext_iff, and_assoc]

/-- The readers accept the spellings of rules and nothing else. -/
theorem statements_eq_iff {rs : List Rule} : statements last ts = (rs, none) ↔ Spelling ts rs := by
  induction rs generalizing ts with
  | nil =>
    rw [spelling_nil]
    rcases ts with _ | ⟨t, ts⟩
    · simp [statements_nil]
    cases h : statement last (t :: ts) with
    | error e => simp [statements_of_error h]
    | ok s => simp [statements_of_ok h]
  | cons r rs ih =>
    rw [statements_eq_cons_iff, spelling_cons last]
    simp only [ih]

end Grammar

/-- The tokens of the rule, all of them on its line. -/
def Rule.located (r : Rule) : List Located := r.tokens.map (⟨·, r.line⟩)

theorem Rule.spelledBy_located (r : Rule) : r.SpelledBy r.located := by
  refine ⟨?_, ?_⟩
  · rw [located, List.map_map]
    exact List.map_id _
  · cases h : r.tokens with
    | nil => simp [tokens] at h
    | cons k ks => simp [located, h]

/-- **Rules are read from their spellings and from nothing else.**  Take any list of tokens.  Rules
are read from all of it, without a fault, if and only if it is the tokens of these rules one after
the other, where each rule has a head or a body, no predicate is a quoted string, and the first
token of a rule stands on its line.  If there are no such rules, a fault is reported.  And every
list of such rules is read from its spelling. -/
theorem statements_exact (last : Nat) (ts : List Located) :
    (∀ rs, Grammar.statements last ts = (rs, none) ↔ Spelling ts rs) ∧
    ((¬ ∃ rs, Spelling ts rs) → ∃ error, (Grammar.statements last ts).2 = some error) ∧
    ∀ rs : List Rule, (∀ r ∈ rs, r.Writable) →
      Grammar.statements last (rs.flatMap Rule.located) = (rs, none) := by
  refine ⟨fun rs ↦ Grammar.statements_eq_iff, fun hnone ↦ ?_, fun rs hwritable ↦ ?_⟩
  · refine Option.ne_none_iff_exists'.1 fun hfault ↦ hnone ⟨(Grammar.statements last ts).1, ?_⟩
    exact Grammar.statements_eq_iff.1 (Prod.ext rfl hfault)
  · refine Grammar.statements_eq_iff.2 ⟨⟨rs.map Rule.located, rfl, ?_⟩, hwritable⟩
    rw [List.forall₂_map_left_iff, List.forall₂_same]
    exact fun r _ ↦ r.spelledBy_located

/-- A rule with all kinds of literals, and a constraint. -/
def mixedRules : List Rule :=
  [⟨some ⟨"go", [.var "V"]⟩,
      [.pos ⟨"waits", [.var "V", .const (.symbol "\"left\"")]⟩, .neg ⟨"closed", []⟩,
        .cmp (.const (.symbol "a")) .ne (.var "V")], 1⟩,
    ⟨none, [.pos ⟨"go", [.const (.int 7)]⟩], 2⟩]

theorem statements_exact_mixed :
    (∀ r ∈ mixedRules, r.Writable) ∧
      Grammar.statements 2 (mixedRules.flatMap Rule.located) = (mixedRules, none) := by
  have hwritable : ∀ r ∈ mixedRules, r.Writable := by decide
  exact ⟨hwritable, (statements_exact 2 []).2.2 mixedRules hwritable⟩

end RightOfWay
