import RightOfWay.Rules.Lexer

/-!
# From tokens to rules

```text
program   := statement*
statement := atom '.' | atom ':-' body '.' | ':-' body '.'
body      := literal (',' literal)*
literal   := 'not' atom | term comparison term | atom
atom      := name ('(' term (',' term)* ')')?
term      := variable | name | number | string
```

* Each reader takes a list of tokens and gives what it read and the tokens behind it, which are
  fewer (`length_lt_of_pattern` and so on).  A fault is put on the line of the token that it was
  found at, and past the end on the line `last` of the last token.
* `statements` reads rules until the tokens run out or a fault stops it.
* `parseProgram` reads a program text.  Rules are checked for safety in order, before a fault behind
  them comes to light.
* `parseAtom` reads a single ground atom.
-/

set_option autoImplicit false

namespace RightOfWay

/-- What a reader of tokens gives: a result and the tokens behind it. -/
abbrev Reading (α : Type) := Except SyntaxError (α × List Located)

/-- The result changed by a function, with the same tokens behind it. -/
def Reading.as {α β : Type} (f : α → β) (r : Reading α) : Reading β :=
  match r with
  | .error e => .error e
  | .ok (a, rest) => .ok (f a, rest)

theorem Reading.as_eq_ok_iff {α β : Type} {f : α → β} {r : Reading α} {b : β}
    {rest : List Located} : Reading.as f r = .ok (b, rest) ↔ ∃ a, r = .ok (a, rest) ∧ f a = b := by
  cases r with
  | error e => exact ⟨nofun, nofun⟩
  | ok s =>
    constructor
    · rintro ⟨⟩
      exact ⟨_, rfl, rfl⟩
    · rintro ⟨_, ⟨⟩, rfl⟩
      rfl

namespace Grammar

/-- The line of the next token, or of the last one when none is left. -/
def lineOf (last : Nat) : List Located → Nat
  | [] => last
  | t :: _ => t.line

/-- The fault that something else stands where the wanted thing was looked for. -/
def missing (last : Nat) (wanted : Wanted) (ts : List Located) : SyntaxError :=
  ⟨lineOf last ts, .expected wanted (ts.head?.map Located.token)⟩

/-! ## Terms -/

/-- The argument that a token stands for. -/
def argOfToken? : Token → Option Arg
  | .var name => some (.var name)
  | .symbol text => some (.const (.symbol text))
  | .int value => some (.const (.int value))
  | _ => none

/-- A term.  A bracket behind it would make it a function term. -/
def arg (last : Nat) (ts : List Located) : Reading Arg :=
  match ts with
  | [] => .error (missing last .term ts)
  | t :: rest =>
    match argOfToken? t.token with
    | none => .error (missing last .term ts)
    | some a =>
      if rest.head?.map Located.token = some .openParen then .error ⟨t.line, .functionTerm⟩
      else .ok (a, rest)

/-- The terms of an atom, behind the opening bracket up to the closing one.  The predicate stands on
`line`. -/
def args (last line : Nat) : List Located → Reading (List Arg)
  | [] => .error (missing last .term [])
  | t :: rest =>
    match arg last (t :: rest) with
    | .error e => .error e
    | .ok (a, _) =>
      match rest with
      | ⟨.comma, _⟩ :: rest => (args last line rest).as (a :: ·)
      | ⟨.closeParen, _⟩ :: rest => .ok ([a], rest)
      | _ => .error ⟨line, .expectedSeparator⟩

/-! ## Atoms and literals -/

/-- The predicate that a token names; a quoted string names none. -/
def predicateOfToken? : Token → Option String
  | .symbol text => if text.toList.head? = some '"' then none else some text
  | _ => none

/-- An atom. -/
def pattern (last : Nat) (ts : List Located) : Reading Pattern :=
  match ts with
  | [] => .error (missing last .predicate ts)
  | t :: rest =>
    match predicateOfToken? t.token with
    | none => .error (missing last .predicate ts)
    | some predicate =>
      match rest with
      | ⟨.openParen, _⟩ :: rest =>
        (args last t.line rest).as (⟨predicate, ·⟩)
      | rest => .ok (⟨predicate, []⟩, rest)

/-- A comparison. -/
def comparison (last : Nat) (ts : List Located) : Reading Literal :=
  match arg last ts with
  | .error e => .error e
  | .ok (lhs, rest) =>
    match rest with
    | ⟨.comparison c, _⟩ :: rest => (arg last rest).as (.cmp lhs c ·)
    | rest => .error ⟨lineOf last rest, .expectedComparison⟩

/-- Whether a literal that starts with these tokens is a comparison: a variable or a number can
start nothing else, and a symbol starts one if a comparison sign comes next. -/
def startsComparison : List Located → Bool
  | ⟨.var _, _⟩ :: _ => true
  | ⟨.int _, _⟩ :: _ => true
  | ⟨.symbol _, _⟩ :: ⟨.comparison _, _⟩ :: _ => true
  | _ => false

/-- A literal. -/
def literal (last : Nat) (ts : List Located) : Reading Literal :=
  match ts with
  | ⟨.negation, _⟩ :: rest => (pattern last rest).as .neg
  | ts =>
    if startsComparison ts then comparison last ts
    else (pattern last ts).as .pos

/-! ## Every reader moves on -/

theorem length_lt_of_arg {last : Nat} {ts rest : List Located} {a : Arg}
    (h : arg last ts = .ok (a, rest)) : rest.length < ts.length := by
  unfold arg at h
  repeat' split at h
  all_goals cases h
  simp

theorem length_lt_of_args {last line : Nat} {ts rest : List Located} {as : List Arg}
    (h : args last line ts = .ok (as, rest)) : rest.length < ts.length := by
  fun_induction args last line ts generalizing as with
  | case1 => cases h
  | case2 => cases h
  | case3 t a _ _ _ _ ih =>
    obtain ⟨_, h, _⟩ := Reading.as_eq_ok_iff.1 h
    have := ih h
    simp only [List.length_cons]
    omega
  | case4 => cases h; simp only [List.length_cons]; omega
  | case5 => cases h

theorem length_lt_of_pattern {last : Nat} {ts rest : List Located} {p : Pattern}
    (h : pattern last ts = .ok (p, rest)) : rest.length < ts.length := by
  unfold pattern at h
  repeat' split at h
  · cases h
  · cases h
  · obtain ⟨_, h, _⟩ := Reading.as_eq_ok_iff.1 h
    have := length_lt_of_args h
    simp only [List.length_cons]
    omega
  · cases h
    simp

theorem length_lt_of_comparison {last : Nat} {ts rest : List Located} {l : Literal}
    (h : comparison last ts = .ok (l, rest)) : rest.length < ts.length := by
  unfold comparison at h
  split at h
  · cases h
  · rename_i hlhs
    have hl := length_lt_of_arg hlhs
    split at h
    · obtain ⟨_, h, _⟩ := Reading.as_eq_ok_iff.1 h
      have := length_lt_of_arg h
      simp at hl
      omega
    · cases h

theorem length_lt_of_literal {last : Nat} {ts rest : List Located} {l : Literal}
    (h : literal last ts = .ok (l, rest)) : rest.length < ts.length := by
  unfold literal at h
  split at h
  · obtain ⟨_, h, _⟩ := Reading.as_eq_ok_iff.1 h
    have := length_lt_of_pattern h
    simp only [List.length_cons]
    omega
  · split at h
    · exact length_lt_of_comparison h
    · obtain ⟨_, h, _⟩ := Reading.as_eq_ok_iff.1 h
      exact length_lt_of_pattern h

/-! ## Statements -/

/-- The period that ends a statement. -/
def period (last : Nat) (ts : List Located) : Reading Unit :=
  match ts with
  | ⟨.period, _⟩ :: rest => .ok ((), rest)
  | ts => .error (missing last .period ts)

/-- The body of a rule and the period behind it. -/
def body (last : Nat) (ts : List Located) : Reading (List Literal) :=
  match _h : literal last ts with
  | .error e => .error e
  | .ok (l, ⟨.comma, _⟩ :: rest) => (body last rest).as (l :: ·)
  | .ok (l, rest) => (period last rest).as fun _ ↦ [l]
termination_by ts.length
decreasing_by
  have := length_lt_of_literal _h
  simp at this
  omega

/-- A fact, a rule or a constraint. -/
def statement (last : Nat) (ts : List Located) : Reading Rule :=
  let line := lineOf last ts
  match ts with
  | ⟨.provided, _⟩ :: rest => (body last rest).as (⟨none, ·, line⟩)
  | ts =>
    match pattern last ts with
    | .error e => .error e
    | .ok (head, rest) =>
      match rest with
      | ⟨.period, _⟩ :: rest => .ok (⟨some head, [], line⟩, rest)
      | ⟨.provided, _⟩ :: rest =>
        (body last rest).as (⟨some head, ·, line⟩)
      | _ => .error ⟨line, .expectedEndOfHead⟩

theorem length_lt_of_period {last : Nat} {ts rest : List Located} {u : Unit}
    (h : period last ts = .ok (u, rest)) : rest.length < ts.length := by
  unfold period at h
  split at h <;> cases h
  simp

theorem length_lt_of_body {last : Nat} {ts rest : List Located} {ls : List Literal}
    (h : body last ts = .ok (ls, rest)) : rest.length < ts.length := by
  fun_induction body last ts generalizing ls with
  | case1 => cases h
  | case2 _ _ _ _ hl ih =>
    have hl := length_lt_of_literal hl
    obtain ⟨_, h, _⟩ := Reading.as_eq_ok_iff.1 h
    have := ih h
    simp at hl
    omega
  | case3 _ _ _ _ hl =>
    have hl := length_lt_of_literal hl
    obtain ⟨_, h, _⟩ := Reading.as_eq_ok_iff.1 h
    have := length_lt_of_period h
    omega

theorem length_lt_of_statement {last : Nat} {ts rest : List Located} {r : Rule}
    (h : statement last ts = .ok (r, rest)) : rest.length < ts.length := by
  unfold statement at h
  dsimp only at h
  split at h
  · obtain ⟨_, h, _⟩ := Reading.as_eq_ok_iff.1 h
    have := length_lt_of_body h
    simp only [List.length_cons]
    omega
  · split at h
    · cases h
    · rename_i hhead
      have hh := length_lt_of_pattern hhead
      split at h
      · cases h
        simp at hh
        omega
      · obtain ⟨_, h, _⟩ := Reading.as_eq_ok_iff.1 h
        have := length_lt_of_body h
        simp at hh
        omega
      · cases h

/-- The rules that can be read from the front, and the fault that stopped the reading, if any. -/
def statements (last : Nat) (ts : List Located) : List Rule × Option SyntaxError :=
  match ts with
  | [] => ([], none)
  | t :: ts =>
    match _h : statement last (t :: ts) with
    | .error e => ([], some e)
    | .ok (r, rest) =>
      let (rs, e) := statements last rest
      (r :: rs, e)
termination_by ts.length
decreasing_by exact length_lt_of_statement _h

/-- The line of the last token, and one if there is none. -/
def lastLine (ts : List Located) : Nat := (ts.getLast?.map Located.line).getD 1

end Grammar

open Grammar

/-- The rules of a program text.  Among several errors the first is reported, where a rule is
checked for safety as soon as it is read. -/
def parseProgram (text : String) : Except RuleError (List Rule) :=
  match tokens text with
  | .error e => .error (.unreadable e)
  | .ok ts =>
    let (rules, fault) := statements (lastLine ts) ts
    match rules.findSome? fun r ↦ r.unsafeVar?.map fun name ↦ RuleError.unsafeRule r.line name with
    | some e => .error e
    | none =>
      match fault with
      | some e => .error (.unreadable e)
      | none => .ok rules

/-- The ground terms of a list of arguments, or the first variable among them. -/
def groundTerms : List Arg → Except String (List Term)
  | [] => .ok []
  | .var name :: _ => .error name
  | .const term :: as => (groundTerms as).map (term :: ·)

/-- The ground atom that a text consists of. -/
def parseAtom (text : String) : Except SyntaxError Atom :=
  match tokens text with
  | .error e => .error e
  | .ok ts =>
    match pattern (lastLine ts) ts with
    | .error e => .error e
    | .ok (_, t :: _) => .error ⟨t.line, .trailingInput text⟩
    | .ok (p, []) =>
      match groundTerms p.args with
      | .ok terms => .ok ⟨p.predicate, terms⟩
      | .error name => .error ⟨1, .notGround text name⟩

end RightOfWay
