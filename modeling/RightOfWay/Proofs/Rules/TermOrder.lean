import Mathlib.Logic.ExistsUnique
import RightOfWay.Rules.Join

/-!
# The order of terms in rules

`Term.compareInRules` takes a term to a kind, a number and a text, and compares these.  The text of
a quoted string is what stands between its quotes, so the strings `"a"` and `a` have one text, and
one may ask whether terms are mixed up.  They are not.

* A quoted string is a quote, its contents and another quote, and all other symbols are as they are:
  a lone quote, or a symbol with a quote on one side only (`Term.quoted?_eq_some_iff`).
* With its kind, a term is determined by what it is compared by, so `compareInRules` is the order of
  a line: `Std.TransCmp` and `Std.LawfulEqCmp`.
* `Term.compareInRules_of_kind` is for terms of different kinds, and
  `Term.compareInRules_string` for two quoted strings.

What follows for comparisons in rules, and for variables that stand in two places, is
`Comparison.holds_exact`.
-/

set_option autoImplicit false

namespace RightOfWay

namespace Term

/-- The quoted string with the contents. -/
def string (contents : String) : Term := .symbol ("\"" ++ contents ++ "\"")

variable {s t : Term} {text contents : String}

/-! ## Quoted strings -/

theorem toList_quotes (contents : String) :
    ("\"" ++ contents ++ "\"").toList = '"' :: (contents.toList ++ ['"']) := by
  simp [String.toList_append]

/-- Only what stands between two quotes is a quoted string. -/
theorem quoted?_eq_some_iff : t.quoted? = some contents ↔ t = string contents := by
  rcases t with value | text
  · simp [quoted?, string]
  rw [string, symbol.injEq, ← String.toList_inj, toList_quotes, quoted?]
  split
  · rename_i rest htext
    rw [htext, List.cons.injEq, eq_self, true_and]
    split
    · rename_i hlast
      obtain ⟨inner, rfl⟩ := List.getLast?_eq_some_iff.1 hlast
      simp [← String.toList_inj]
    · -- a quote that is not the last character, or the only one
      rename_i hlast
      refine iff_of_false (Option.some_ne_none _).symm ?_
      rintro rfl
      exact hlast List.getLast?_concat
  · rename_i hfirst
    exact iff_of_false (Option.some_ne_none _).symm (hfirst _)

theorem quoted?_string (contents : String) : (string contents).quoted? = some contents :=
  quoted?_eq_some_iff.2 rfl

theorem quoted?_eq_none_iff : t.quoted? = none ↔ ∀ contents, t ≠ string contents := by
  simp [Option.eq_none_iff_forall_ne_some, quoted?_eq_some_iff]

/-! ## Kinds -/

theorem kind_int (value : Int64) : (int value).kind = 0 := rfl

theorem kind_string (contents : String) : (string contents).kind = 2 := by
  rw [kind.eq_def, string]
  dsimp only
  rw [← string, quoted?_string]
  rfl

theorem kind_symbol (h : ∀ contents, symbol text ≠ string contents) : (symbol text).kind = 1 := by
  rw [kind.eq_def]
  dsimp only
  rw [quoted?_eq_none_iff.2 h]
  rfl

theorem kind_symbol_pos (text : String) : 0 < (symbol text).kind := by
  rw [kind.eq_def]
  dsimp only
  split
  · exact Nat.zero_lt_two
  · exact Nat.zero_lt_one

theorem contents_string (contents : String) : (string contents).contents = contents := by
  rw [Term.contents, quoted?_string]
  rfl

theorem contents_symbol (h : ∀ contents, symbol text ≠ string contents) :
    (symbol text).contents = text := by
  rw [Term.contents, quoted?_eq_none_iff.2 h]
  rfl

/-- A term is a number, a symbol that is no quoted string, or a quoted string. -/
theorem int_or_symbol_or_string (t : Term) : (∃ value, t = int value) ∨
    (∃ text, t = symbol text ∧ ∀ contents, symbol text ≠ string contents) ∨
      ∃ contents, t = string contents := by
  rcases hquoted : t.quoted? with _ | contents
  · rcases t with value | text
    · exact .inl ⟨value, rfl⟩
    · exact .inr (.inl ⟨text, rfl, quoted?_eq_none_iff.1 hquoted⟩)
  · exact .inr (.inr ⟨contents, quoted?_eq_some_iff.1 hquoted⟩)

/-! ## The order -/

instance : Std.TransCmp compareInRules := inferInstanceAs <| Std.TransCmp <|
  compareLex (compareOn kind) (compareLex (compareOn number) (compareOn Term.contents))

/-- Terms that are compared by the same are the same. -/
theorem eq_of_kind_eq (hkind : s.kind = t.kind) (hnumber : s.number = t.number)
    (hcontents : s.contents = t.contents) : s = t := by
  rcases s.int_or_symbol_or_string with ⟨m, rfl⟩ | ⟨a, rfl, ha⟩ | ⟨a, rfl⟩
  · rcases t.int_or_symbol_or_string with ⟨n, rfl⟩ | ⟨b, rfl, hb⟩ | ⟨b, rfl⟩
    · exact congrArg int hnumber
    · simp [kind_int, kind_symbol hb] at hkind
    · simp [kind_int, kind_string] at hkind
  · rcases t.int_or_symbol_or_string with ⟨n, rfl⟩ | ⟨b, rfl, hb⟩ | ⟨b, rfl⟩
    · simp [kind_int, kind_symbol ha] at hkind
    · rwa [contents_symbol ha, contents_symbol hb, ← symbol.injEq] at hcontents
    · simp [kind_string, kind_symbol ha] at hkind
  · rcases t.int_or_symbol_or_string with ⟨n, rfl⟩ | ⟨b, rfl, hb⟩ | ⟨b, rfl⟩
    · simp [kind_int, kind_string] at hkind
    · simp [kind_string, kind_symbol hb] at hkind
    · rw [contents_string, contents_string] at hcontents
      rw [hcontents]

instance : Std.LawfulEqCmp compareInRules where
  eq_of_compare {s t} h := by
    obtain ⟨hkind, h⟩ := compareLex_eq_eq.1 h
    obtain ⟨hnumber, hcontents⟩ := compareLex_eq_eq.1 h
    exact eq_of_kind_eq (Std.LawfulEqOrd.eq_of_compare hkind)
      (Std.LawfulEqOrd.eq_of_compare hnumber) (Std.LawfulEqOrd.eq_of_compare hcontents)

theorem compareInRules_of_kind (h : s.kind < t.kind) : compareInRules s t = .lt := by
  have hkind : compareOn kind s t = .lt := Nat.compare_eq_lt.2 h
  rw [compareInRules, compareLex, hkind]
  rfl

theorem compareInRules_int (m n : Int64) : compareInRules (int m) (int n) = compare m n := by
  have h : compareInRules (int m) (int n) = (compare m n).then (compare "" "") := rfl
  rw [h, Std.ReflOrd.compare_self, Ordering.then_eq]

theorem compareInRules_string (a b : String) :
    compareInRules (string a) (string b) = compare a b := by
  have h : compareInRules (string a) (string b) =
    (compare (string a).kind (string b).kind).then ((compare (0 : Int64) 0).then
      (compare (string a).contents (string b).contents)) := rfl
  rw [h, kind_string, kind_string, contents_string, contents_string]
  rfl

end Term

namespace Comparison

variable {a b c : Term}

theorem holds_lt : lt.holds a b = true ↔ Term.compareInRules a b = .lt := beq_iff_eq

theorem holds_eq : eq.holds a b = true ↔ a = b :=
  beq_iff_eq.trans Std.LawfulEqCmp.compare_eq_iff_eq

theorem holds_ne : ne.holds a b = true ↔ a ≠ b :=
  bne_iff_ne.trans (not_congr Std.LawfulEqCmp.compare_eq_iff_eq)

/-- Of the three, the one that holds is the one that the order names. -/
theorem existsUnique_holds (a b : Term) : ∃! c, c ∈ [lt, eq, gt] ∧ c.holds a b = true := by
  rcases h : Term.compareInRules a b
  · exact ⟨lt, by simp [holds, h], by simp [holds, h]⟩
  · exact ⟨eq, by simp [holds, h], by simp [holds, h]⟩
  · exact ⟨gt, by simp [holds, h], by simp [holds, h]⟩

theorem holds_gt (a b : Term) : gt.holds a b = lt.holds b a := by
  rw [Bool.eq_iff_iff, holds_lt]
  exact beq_iff_eq.trans Std.OrientedCmp.gt_iff_lt

theorem holds_lt_trans (hab : lt.holds a b = true) (hbc : lt.holds b c = true) :
    lt.holds a c = true :=
  holds_lt.2 (Std.TransCmp.lt_trans (holds_lt.1 hab) (holds_lt.1 hbc))

theorem holds_lt_of_kind (h : a.kind < b.kind) : lt.holds a b = true :=
  holds_lt.2 (Term.compareInRules_of_kind h)

theorem holds_lt_int {m n : Int64} : lt.holds (.int m) (.int n) = true ↔ m < n := by
  rw [holds_lt, Term.compareInRules_int, Std.compare_eq_lt]

theorem holds_lt_string {s t : String} : lt.holds (.string s) (.string t) = true ↔ s < t := by
  rw [holds_lt, Term.compareInRules_string]
  exact compareOfLessAndEq_eq_lt

end Comparison

/-! ## Variables in two places -/

/-- A literal in which a bound variable stands again lets through the tuple with the same term. -/
theorem matchArgs_of_bound {b : Binding} {x : String} {s : Term} (hx : b[x]? = some s) (t : Term) :
    matchArgs [.var x] [t] b = if s = t then some b else none := by
  simp [matchArgs, hx]

/-- An equation between two variables is as good as one variable in both places. -/
theorem solutions_of_equation (db : Database) (ls : List Literal) {b : Binding} {x y : String}
    {s t : Term} (hx : b[x]? = some s) (hy : b[y]? = some t) :
    solutions db (.cmp (.var x) .eq (.var y) :: ls) b =
      if (matchArgs [.var x] [t] b).isSome then solutions db ls b else [] := by
  rw [solutions]
  simp only [Binding.term?, hx, hy, matchArgs_of_bound hx t, Comparison.holds_eq]
  by_cases hst : s = t
  · simp [hst]
  · simp [hst]

/-- **Comparisons in rules are those of a strict total order on all terms, and equality is
identity.**

* Of any two terms, exactly one comparison among less, equal and greater holds, and equal are only
  terms that are the same.  The three other comparisons are the negations of these, greater is less
  the other way around, and less is transitive.
* Numbers come by value and before all symbols, and symbols that are not between quotes before those
  that are.  Quoted strings come in the order of their contents, also where this is not the order of
  their texts.
* An equation between two variables that are bound lets through what a literal lets through in which
  the first stands in the place of the second. -/
theorem Comparison.holds_exact :
    (∀ a b : Term, ∃! c, c ∈ [lt, eq, gt] ∧ c.holds a b = true) ∧
    (∀ a b : Term, eq.holds a b = true ↔ a = b) ∧
    (∀ a b : Term, ne.holds a b = !eq.holds a b ∧ le.holds a b = !gt.holds a b ∧
      ge.holds a b = !lt.holds a b ∧ gt.holds a b = lt.holds b a) ∧
    (∀ a b c : Term, lt.holds a b = true → lt.holds b c = true → lt.holds a c = true) ∧
    (∀ m n : Int64, lt.holds (.int m) (.int n) = true ↔ m < n) ∧
    (∀ (n : Int64) (text : String), lt.holds (.int n) (.symbol text) = true) ∧
    (∀ text : String, (∀ inner, .symbol text ≠ Term.string inner) →
      ∀ contents, lt.holds (.symbol text) (.string contents) = true) ∧
    (∀ s t : String, lt.holds (.string s) (.string t) = true ↔ s < t) ∧
    (∃ s t : String, lt.holds (.string s) (.string t) = true ∧
      (Term.string t).text < (Term.string s).text) ∧
    ∀ (db : Database) (ls : List Literal) (b : Binding) (x y : String) (s t : Term),
      b[x]? = some s → b[y]? = some t →
        RightOfWay.solutions db (.cmp (.var x) eq (.var y) :: ls) b =
          if (matchArgs [.var x] [t] b).isSome then RightOfWay.solutions db ls b else [] := by
  refine ⟨existsUnique_holds, fun _ _ ↦ holds_eq, fun a b ↦ ⟨rfl, ?_, ?_, holds_gt a b⟩,
    fun _ _ _ ↦ holds_lt_trans, fun _ _ ↦ holds_lt_int, fun n text ↦ ?_,
    fun text htext contents ↦ ?_, fun _ _ ↦ holds_lt_string, ?_,
    fun db ls b x y s t ↦ solutions_of_equation db ls⟩
  · rfl
  · rfl
  · exact holds_lt_of_kind (Term.kind_symbol_pos text)
  · refine holds_lt_of_kind ?_
    rw [Term.kind_symbol htext, Term.kind_string]
    exact Nat.one_lt_two
  · -- a quote comes behind an exclamation mark
    exact ⟨"a", "a!", holds_lt_string.2 (by decide), by decide⟩

/-- A lone quote is no quoted string.  It stands between the numbers and the quoted strings, and a
variable that is bound to it equals no variable that is bound to the empty string. -/
theorem Comparison.holds_exact_quote :
    (∀ inner, .symbol "\"" ≠ Term.string inner) ∧
      lt.holds (.int Int64.maxValue) (.symbol "\"") = true ∧
      lt.holds (.symbol "\"") (.string "") = true ∧ lt.holds (.string "") (.string "a") = true ∧
      lt.holds (.symbol "\"") (.string "a") = true ∧
      RightOfWay.solutions .empty [.cmp (.var "X") eq (.var "Y")]
        (.ofList [("X", Term.symbol "\""), ("Y", Term.string "")]) = [] := by
  obtain ⟨-, -, -, htrans, -, hint, hsymbol, hstring, -, hbound⟩ := holds_exact
  have hlone : ∀ inner, .symbol "\"" ≠ Term.string inner := by
    refine Term.quoted?_eq_none_iff.1 ?_
    decide
  have hempty := hsymbol "\"" hlone ""
  have hless := (hstring "" "a").2 (by decide)
  refine ⟨hlone, hint _ _, hempty, hless, htrans _ _ _ hempty hless, ?_⟩
  rw [hbound .empty [] _ "X" "Y" (Term.symbol "\"") (Term.string "") (by decide) (by decide)]
  rfl

end RightOfWay
