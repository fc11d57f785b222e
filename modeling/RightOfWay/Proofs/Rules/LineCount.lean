import RightOfWay.Proofs.Rules.LineEnd

/-!
# Counting lines character by character

`scan` adds up the line ends of a lexeme when it is read.  A lexer that takes one character after
the other can instead count while it reads, and then it has two ways to take a character: one that
looks whether it is a line end (`Cursor.bump`), and a quicker one for characters that cannot be
(`Cursor.next` and `Cursor.skipWhile`).  Where it takes the second one for a character that is a
line end after all, all lines behind are wrong.

`Cursor.read` is that lexer.  It counts in what may run over several lines, and nowhere else:

* blanks, block comments from their second sign on, directives behind their name, and quoted strings
  are taken by `bump`;
* names, numbers, the rest of a line comment and the second character of a sign by the others.

**It never miscounts** (`Cursor.read_eq`): it gives the tokens of `scan`, with their lines.  For
each kind of lexeme this comes down to what the quick way takes being free of line ends
(`count_takeWhile`).
-/

set_option autoImplicit false

namespace RightOfWay

/-- What a reader has not taken yet, and the number of the line that it believes to be on. -/
structure Cursor where
  rest : List Char
  line : Nat

namespace Cursor

/-- A character, with a new line behind a line end. -/
def bump : Cursor → Option (Char × Cursor)
  | ⟨[], _⟩ => none
  | ⟨c :: cs, line⟩ => some (c, ⟨cs, if c = '\n' then line + 1 else line⟩)

/-- A character, on the same line. -/
def next : Cursor → Option (Char × Cursor)
  | ⟨[], _⟩ => none
  | ⟨c :: cs, line⟩ => some (c, ⟨cs, line⟩)

/-- Behind all characters of a kind, on the same line. -/
def skipWhile (p : Char → Bool) (k : Cursor) : Cursor := { k with rest := k.rest.dropWhile p }

/-- Behind a text that is in front, on the line where it ends. -/
def past (k : Cursor) (text rest : List Char) : Cursor := ⟨rest, k.line + text.count '\n'⟩

variable {k k' : Cursor} {c : Char}

theorem bump_eq_some_iff :
    k.bump = some (c, k') ↔ k.rest = c :: k'.rest ∧ k' = k.past [c] k'.rest := by
  obtain ⟨cs, line⟩ := k
  obtain ⟨cs', line'⟩ := k'
  cases cs with
  | nil => simp [bump]
  | cons d cs =>
    simp only [bump, past, Option.some.injEq, Prod.mk.injEq, mk.injEq, List.cons.injEq, true_and,
      List.count_singleton, beq_iff_eq]
    constructor
    · rintro ⟨rfl, rfl, rfl⟩
      refine ⟨⟨rfl, rfl⟩, ?_⟩
      split <;> rfl
    · rintro ⟨⟨rfl, rfl⟩, rfl⟩
      refine ⟨rfl, rfl, ?_⟩
      split <;> rfl

theorem bump_eq_none_iff : k.bump = none ↔ k.rest = [] := by
  obtain ⟨_ | ⟨c, cs⟩, line⟩ := k <;> simp [bump]

theorem length_lt_of_bump (h : k.bump = some (c, k')) : k'.rest.length < k.rest.length := by
  rw [(bump_eq_some_iff.1 h).1]
  exact Nat.lt_succ_self _

theorem rest_past (k : Cursor) (text rest : List Char) : (k.past text rest).rest = rest := rfl

theorem past_past (k : Cursor) (text text' rest rest' : List Char) :
    (k.past text rest).past text' rest' = k.past (text ++ text') rest' := by
  rw [past, past, past, List.count_append, Nat.add_assoc]

theorem past_of_bump (h : k.bump = some (c, k')) (text rest : List Char) :
    k'.past text rest = k.past (c :: text) rest := by
  rw [(bump_eq_some_iff.1 h).2, past, past, past, List.count_singleton, List.count_cons,
    Nat.add_assoc, Nat.add_comm (List.count _ _)]

/-! ## What may run over several lines -/

/-- Behind the end of a block comment, given the character that was taken last. -/
def closeComment (prev : Char) (k : Cursor) : Option Cursor :=
  match _h : k.bump with
  | none => none
  | some (c, k) => if prev = '*' ∧ c = '%' then some k else closeComment c k
termination_by k.rest.length
decreasing_by exact length_lt_of_bump _h

/-- Behind the period of a directive. -/
def closeDirective (k : Cursor) : Option Cursor :=
  match _h : k.bump with
  | none => none
  | some (c, k) => if c = '.' then some k else closeDirective k
termination_by k.rest.length
decreasing_by exact length_lt_of_bump _h

/-- The characters of a string up to its closing quote, and behind it. -/
def closeString (k : Cursor) : Option (List Char × Cursor) :=
  match _h : k.bump with
  | none => none
  | some (c, k) =>
    if c = '\\' then
      match _h' : k.bump with
      | none => none
      | some (d, k) => (closeString k).map fun (text, k) ↦ (c :: d :: text, k)
    else if c = '"' then some ([c], k)
    else (closeString k).map fun (text, k) ↦ (c :: text, k)
termination_by k.rest.length
decreasing_by
  · exact Nat.lt_trans (length_lt_of_bump _h') (length_lt_of_bump _h)
  · exact length_lt_of_bump _h

theorem eq_cons_of_closeComment {cs : List Char} {s : List Char × List Char}
    (h : Lexeme.closeComment (c :: cs) = some s) : s.1 = c :: s.1.tail := by
  rw [Lexeme.closeComment.eq_def] at h
  split at h
  · rename_i heq
    cases heq
    cases h
    rfl
  · rename_i heq
    cases heq
    obtain ⟨-, -, rfl⟩ := Option.map_eq_some_iff.1 h
    rfl
  · cases h

theorem closeComment_eq (prev : Char) (k : Cursor) :
    closeComment prev k =
      (Lexeme.closeComment (prev :: k.rest)).map fun s ↦ k.past s.1.tail s.2 := by
  fun_induction closeComment prev k with
  | case1 prev k h =>
    rw [bump_eq_none_iff.1 h]
    simp [Lexeme.closeComment]
  | case2 prev k c k' h hclose =>
    obtain ⟨rfl, rfl⟩ := hclose
    obtain ⟨hrest, hk'⟩ := bump_eq_some_iff.1 h
    rw [hrest]
    exact congrArg some hk'
  | case3 prev k c k' h hopen ih =>
    have hstep : Lexeme.closeComment (prev :: c :: k'.rest) =
        (Lexeme.closeComment (c :: k'.rest)).map fun s ↦ (prev :: s.1, s.2) := by
      rw [Lexeme.closeComment]
      rintro rest rfl heq
      exact hopen ⟨rfl, (List.cons.inj heq).1⟩
    rw [ih, (bump_eq_some_iff.1 h).1, hstep, Option.map_map]
    refine Option.map_congr fun s hs ↦ ?_
    show k'.past s.1.tail s.2 = k.past s.1 s.2
    rw [past_of_bump h, ← eq_cons_of_closeComment hs]

/-- The closing sign needs a star of its own. -/
theorem closeComment_start (k : Cursor) :
    closeComment '\x00' k = (Lexeme.closeComment k.rest).map fun s ↦ k.past s.1 s.2 := by
  have hstart : Lexeme.closeComment ('\x00' :: k.rest) =
      (Lexeme.closeComment k.rest).map fun s ↦ ('\x00' :: s.1, s.2) := by
    rw [Lexeme.closeComment]
    exact fun _ h ↦ absurd h (by decide)
  rw [closeComment_eq, hstart, Option.map_map]
  rfl

theorem closeDirective_eq (k : Cursor) :
    closeDirective k = (Lexeme.closeDirective k.rest).map fun s ↦ k.past s.1 s.2 := by
  fun_induction closeDirective k with
  | case1 k h =>
    rw [bump_eq_none_iff.1 h]
    rfl
  | case2 k k' h =>
    obtain ⟨hrest, hk'⟩ := bump_eq_some_iff.1 h
    rw [hrest]
    exact congrArg some hk'
  | case3 k c k' h hopen ih =>
    rw [ih, (bump_eq_some_iff.1 h).1, Lexeme.closeDirective, if_neg hopen, Option.map_map]
    exact Option.map_congr fun s _ ↦ past_of_bump h s.1 s.2

theorem closeString_eq (k : Cursor) :
    closeString k = (Lexeme.closeString k.rest).map fun s ↦ (s.1, k.past s.1 s.2) := by
  fun_induction closeString k with
  | case1 k h =>
    rw [bump_eq_none_iff.1 h]
    rfl
  | case2 k k₁ h' h =>
    rw [(bump_eq_some_iff.1 h).1, bump_eq_none_iff.1 h']
    rfl
  | case3 k k₁ d k₂ h' h ih =>
    rw [ih, (bump_eq_some_iff.1 h).1, (bump_eq_some_iff.1 h').1, Lexeme.closeString,
      Option.map_map, Option.map_map]
    refine Option.map_congr fun s _ ↦ ?_
    simp only [Function.comp_apply, past_of_bump h', past_of_bump h]
  | case4 k k₁ h =>
    obtain ⟨hrest, hk₁⟩ := bump_eq_some_iff.1 h
    rw [hrest]
    exact congrArg (fun k ↦ some (['"'], k)) hk₁
  | case5 k c k₁ h hescape hquote ih =>
    rw [ih, (bump_eq_some_iff.1 h).1, Lexeme.closeString, Option.map_map, Option.map_map]
    · refine Option.map_congr fun s _ ↦ ?_
      simp only [Function.comp_apply, past_of_bump h]
    · exact fun _ _ hc ↦ absurd hc hescape
    · exact hquote

/-! ## Reading a lexeme

The functions below read the lexeme that starts with a character that has been taken already. -/

/-- The token of a lexeme, if it stands for one, and what is behind it. -/
abbrev Step := Option Token × Cursor

/-- A name and the token that it makes. -/
def word (c : Char) (token : String → Token) (k : Cursor) : Step :=
  (some (token (String.ofList (c :: k.rest.takeWhile isWordChar))), k.skipWhile isWordChar)

/-- A comment, behind its `%`. -/
def comment (k : Cursor) : Except Fault Step :=
  match k.next with
  | some ('*', k) =>
    match closeComment '\x00' k with
    | some k => .ok (none, k)
    | none => .error .unterminatedBlockComment
  | _ => .ok (none, k.skipWhile (· ≠ '\n'))

/-- A directive, behind its number sign. -/
def directive (k : Cursor) : Except Fault Step :=
  match k.next with
  | none => .error .emptyDirective
  | some (first, k) =>
    if first.isAlpha then
      let name := first :: k.rest.takeWhile isWordChar
      if name = "show".toList ∨ name = "program".toList then
        match closeDirective (k.skipWhile isWordChar) with
        | some k => .ok (none, k)
        | none => .error .unterminatedDirective
      else .error (.unsupportedDirective (String.ofList name))
    else .error .emptyDirective

/-- A number: a digit or a minus sign, and all digits that follow. -/
def integer (c : Char) (k : Cursor) : Except Fault Step :=
  let digits := k.rest.takeWhile Char.isDigit
  let value := if c = '-' then int64? true digits else int64? false (c :: digits)
  match value with
  | some value => .ok (some (.int value), k.skipWhile Char.isDigit)
  | none => .error (.invalidInteger (String.ofList (c :: digits)))

/-- A quoted string. -/
def string (c : Char) (k : Cursor) : Except Fault Step :=
  match closeString k with
  | some (text, k) => .ok (some (.symbol (String.ofList (c :: text))), k)
  | none => .error .unterminatedString

/-- A comparison sign that an equality sign may follow. -/
def inequality (alone withEqual : Comparison) (k : Cursor) : Step :=
  match k.next with
  | some ('=', k) => (some (.comparison withEqual), k)
  | _ => (some (.comparison alone), k)

/-- A sign of two characters, behind the first one. -/
def pair (second : Char) (token : Token) (fault : Fault) (k : Cursor) : Except Fault Step :=
  match k.next with
  | none => .error fault
  | some (c, k) => if c = second then .ok (some token, k) else .error fault

/-- A sign, a comment or a directive. -/
def sign : Char → Cursor → Except Fault Step
  | '%', k => k.comment
  | '#', k => k.directive
  | '(', k => .ok (some .openParen, k)
  | ')', k => .ok (some .closeParen, k)
  | ',', k => .ok (some .comma, k)
  | '.', k => .ok (some .period, k)
  | ':', k => k.pair '-' .provided .expectedProvided
  | '!', k => k.pair '=' (.comparison .ne) .expectedUnequal
  | '=', k => .ok (k.inequality .eq .eq)
  | '<', k => .ok (k.inequality .lt .le)
  | '>', k => .ok (k.inequality .gt .ge)
  | c, _ => .error (.unexpectedCharacter c)

/-- The lexeme that starts with `c`. -/
def lexeme (c : Char) (k : Cursor) : Except Fault Step :=
  if Text.isBlank c then .ok (none, k)
  else if c = '"' then k.string c
  else if c = '-' ∨ c.isDigit then k.integer c
  else if c.isLower then
    .ok (k.word c fun name ↦ if name = "not" then .negation else .symbol name)
  else if c.isUpper ∨ c = '_' then .ok (k.word c .var)
  else sign c k

/-- The token of a lexeme, and what is behind it, if its first character has been taken. -/
def step (k : Cursor) (l : Lexeme) : Step := (l.token?, k.past l.spelling.tail l.rest)

/-- The quick way is right where it takes no line ends. -/
theorem count_takeWhile {p : Char → Bool} (h : p '\n' = false) (cs : List Char) :
    (cs.takeWhile p).count '\n' = 0 := by
  rw [List.count_eq_zero]
  intro hmem
  rw [List.all_eq_true.1 List.all_takeWhile _ hmem] at h
  cases h

theorem skipWhile_eq {p : Char → Bool} (h : p '\n' = false) (k : Cursor) :
    k.skipWhile p = k.past (k.rest.takeWhile p) (k.rest.dropWhile p) := by
  rw [skipWhile, past, count_takeWhile h]
  rfl

theorem past_cons_of_ne (h : c ≠ '\n') (cs text rest : List Char) (line : Nat) :
    past ⟨c :: cs, line⟩ (c :: text) rest = past ⟨cs, line⟩ text rest := by
  rw [past, past, List.count_cons_of_ne h]

theorem word_eq (token : String → Token) :
    k.word c token = k.step (Lexeme.word c k.rest token) := by
  rw [word, skipWhile_eq (by decide)]
  rfl

theorem rest_of_next {d : Char} (h : k.next = some (d, k')) : k.rest = d :: k'.rest := by
  obtain ⟨_ | ⟨e, cs⟩, line⟩ := k <;> cases h
  rfl

/-- A second character may be taken the quick way if it is known. -/
theorem step_fixed {d : Char} (hd : d ≠ '\n') (token : Token) (cs : List Char) (line : Nat) :
    step ⟨d :: cs, line⟩ (Lexeme.fixed token [c, d] cs) = (some token, ⟨cs, line⟩) :=
  congrArg (Prod.mk (some token)) (past_cons_of_ne hd cs [] cs line)

theorem comment_eq : k.comment = (Lexeme.comment c k.rest).map k.step := by
  obtain ⟨cs, line⟩ := k
  fun_cases Lexeme.comment c cs with
  | case1 inner text rest h =>
    simp only [comment, next, closeComment_start, h, Option.map_some]
    exact congrArg (fun k ↦ Except.ok (none, k)) (past_cons_of_ne (by decide) ..).symm
  | case2 inner h =>
    simp only [comment, next, closeComment_start, h]
    rfl
  | case3 =>
    rename_i hblock
    rw [comment]
    split
    · rename_i hnext
      exact (hblock _ (rest_of_next hnext)).elim
    · rw [skipWhile_eq (by decide)]
      rfl

theorem directive_eq : k.directive = (Lexeme.directive c k.rest).map k.step := by
  obtain ⟨_ | ⟨first, inner⟩, line⟩ := k
  · rfl
  rw [directive, Lexeme.directive]
  dsimp only [next]
  by_cases hfirst : first.isAlpha = true
  · have hnewline : first ≠ '\n' := by
      rintro rfl
      cases hfirst
    rw [if_pos hfirst, if_pos hfirst]
    split
    · rw [closeDirective_eq, skipWhile_eq (by decide), rest_past]
      dsimp only
      rcases Lexeme.closeDirective (inner.dropWhile isWordChar) with _ | ⟨text, rest⟩
      · rfl
      · refine congrArg (fun k ↦ Except.ok (none, k)) ?_
        exact (past_past ..).trans (past_cons_of_ne hnewline ..).symm
    · rfl
  · rw [if_neg hfirst, if_neg hfirst]
    rfl

theorem integer_eq : k.integer c = (Lexeme.integer c k.rest).map k.step := by
  rw [integer, Lexeme.integer, skipWhile_eq (by decide)]
  cases if c = '-' then int64? true (k.rest.takeWhile Char.isDigit)
    else int64? false (c :: k.rest.takeWhile Char.isDigit) <;> rfl

theorem string_eq : k.string c = (Lexeme.string c k.rest).map k.step := by
  rw [string, Lexeme.string, closeString_eq]
  rcases Lexeme.closeString k.rest with _ | ⟨text, rest⟩ <;> rfl

theorem inequality_eq (alone withEqual : Comparison) :
    k.inequality alone withEqual = k.step (Lexeme.inequality c k.rest alone withEqual) := by
  obtain ⟨cs, line⟩ := k
  fun_cases Lexeme.inequality c cs alone withEqual with
  | case1 rest => exact (step_fixed (by decide) _ rest line).symm
  | case2 =>
    rename_i hequal
    rw [inequality]
    split
    · rename_i hnext
      exact (hequal _ (rest_of_next hnext)).elim
    · rfl

theorem pair_of_ne {second : Char} (h : ∀ rest, k.rest = second :: rest → False) (token : Token)
    (fault : Fault) : k.pair second token fault = .error fault := by
  rw [pair]
  split
  · rfl
  · rename_i hnext
    refine if_neg ?_
    rintro rfl
    exact h _ (rest_of_next hnext)

theorem sign_eq : sign c k = (Lexeme.sign c k.rest).map k.step := by
  obtain ⟨cs, line⟩ := k
  fun_cases Lexeme.sign c cs with
  | case1 => exact comment_eq
  | case2 => exact directive_eq
  | case3 | case4 | case5 | case6 => rfl
  | case7 rest | case9 rest =>
    rw [sign, pair, next]
    dsimp only
    rw [if_pos rfl]
    exact congrArg Except.ok (step_fixed (by decide) _ rest line).symm
  | case8 =>
    rename_i hprovided
    exact pair_of_ne hprovided _ _
  | case10 =>
    rename_i hunequal
    exact pair_of_ne hunequal _ _
  | case11 | case12 | case13 => exact congrArg Except.ok (inequality_eq _ _)
  | case14 =>
    rw [sign]
    · rfl
    all_goals assumption

/-- A lexeme is read as `RightOfWay.lexeme` reads it, and the lines in it are counted. -/
theorem lexeme_eq : k.lexeme c = (RightOfWay.lexeme c k.rest).map k.step := by
  rw [lexeme, RightOfWay.lexeme, string_eq, integer_eq, word_eq, word_eq, sign_eq]
  split
  · rfl
  split
  · rfl
  split
  · rfl
  split
  · rfl
  split <;> rfl

theorem length_le_of_lexeme {token? : Option Token} (h : k.lexeme c = .ok (token?, k')) :
    k'.rest.length ≤ k.rest.length := by
  rw [lexeme_eq] at h
  cases hl : RightOfWay.lexeme c k.rest with
  | error fault =>
    rw [hl] at h
    cases h
  | ok l =>
    rw [hl] at h
    cases h
    exact Nat.le_of_lt_succ (Lexeme.rest_length_lt hl)

/-! ## The whole text -/

/-- The tokens of what is left of a text, after `seen` anonymous variables.  The line of a token is
asked for when its first character has been taken. -/
def read (seen : Nat) (k : Cursor) : Except SyntaxError (List Located) :=
  match _h : k.bump with
  | none => .ok []
  | some (c, k) =>
    match _h' : k.lexeme c with
    | .error fault => .error ⟨k.line, fault⟩
    | .ok (none, k') => read seen k'
    | .ok (some token, k') =>
      if token = .var "_" then
        (read (seen + 1) k').map (⟨.var (anonymousName (seen + 1)), k.line⟩ :: ·)
      else (read seen k').map (⟨token, k.line⟩ :: ·)
termination_by k.rest.length
decreasing_by
  all_goals exact Nat.lt_of_le_of_lt (length_le_of_lexeme _h') (length_lt_of_bump _h)

theorem line_of_bump (h : k.bump = some (c, k')) (hc : c ≠ '\n') : k'.line = k.line := by
  rw [(bump_eq_some_iff.1 h).2, past, List.count_singleton, beq_eq_false_iff_ne.2 hc]
  rfl

/-- A line end is skipped, so that no fault starts with one. -/
theorem ne_lineEnd_of_error {cs : List Char} {fault : Fault}
    (h : RightOfWay.lexeme c cs = .error fault) : c ≠ '\n' := by
  rintro rfl
  cases h

/-- Nor does a token. -/
theorem ne_lineEnd_of_token {cs : List Char} {l : Lexeme} {token : Token}
    (h : RightOfWay.lexeme c cs = .ok l) (htoken : l.token? = some token) : c ≠ '\n' := by
  rintro rfl
  cases h
  cases htoken

/-- Behind a lexeme the count is what it is for the lexeme as a whole. -/
theorem exists_lexeme (h : k.bump = some (c, k')) {s : Step} (h' : k'.lexeme c = .ok s) :
    ∃ l, RightOfWay.lexeme c k'.rest = .ok l ∧ s = (l.token?, ⟨l.rest, l.lineAfter k.line⟩) := by
  rw [lexeme_eq] at h'
  cases hl : RightOfWay.lexeme c k'.rest with
  | error fault =>
    rw [hl] at h'
    cases h'
  | ok l =>
    rw [hl] at h'
    cases h'
    obtain ⟨hne, happend⟩ := Lexeme.splits_of_lexeme hl
    obtain ⟨d, text, hspelling⟩ := List.exists_cons_of_ne_nil hne
    rw [hspelling] at happend
    obtain ⟨rfl, -⟩ := List.cons.inj happend
    refine ⟨l, rfl, congrArg (Prod.mk l.token?) ?_⟩
    rw [past_of_bump h, hspelling, List.tail_cons, ← hspelling]
    rfl

theorem lexeme_eq_error_iff {fault : Fault} :
    k.lexeme c = .error fault ↔ RightOfWay.lexeme c k.rest = .error fault := by
  rw [lexeme_eq]
  cases RightOfWay.lexeme c k.rest with
  | error fault' =>
    constructor
    all_goals
      intro h
      cases h
      rfl
  | ok l => exact iff_of_false nofun nofun

/-- **The lexer that counts on the way never miscounts.** -/
theorem read_eq (seen : Nat) (k : Cursor) : k.read seen = scan k.line seen k.rest := by
  fun_induction read seen k with
  | case1 seen k h => rw [bump_eq_none_iff.1 h, scan_nil]
  | case2 seen k c k₁ h fault h' =>
    have hl := lexeme_eq_error_iff.1 h'
    rw [(bump_eq_some_iff.1 h).1, scan_of_error hl, line_of_bump h (ne_lineEnd_of_error hl)]
  | case3 seen k c k₁ h k₂ h' ih =>
    obtain ⟨l, hl, heq⟩ := exists_lexeme h h'
    obtain ⟨htoken, rfl⟩ := Prod.mk.inj heq
    rw [ih, (bump_eq_some_iff.1 h).1, scan_of_skipped hl htoken.symm]
  | case4 seen k c k₁ h k₂ h' ih =>
    obtain ⟨l, hl, heq⟩ := exists_lexeme h h'
    obtain ⟨htoken, rfl⟩ := Prod.mk.inj heq
    rw [ih, (bump_eq_some_iff.1 h).1, scan_of_anonymous hl htoken.symm,
      line_of_bump h (ne_lineEnd_of_token hl htoken.symm)]
  | case5 seen k c k₁ h token k₂ h' hnamed ih =>
    obtain ⟨l, hl, heq⟩ := exists_lexeme h h'
    obtain ⟨htoken, rfl⟩ := Prod.mk.inj heq
    rw [ih, (bump_eq_some_iff.1 h).1, scan_of_token hl htoken.symm hnamed,
      line_of_bump h (ne_lineEnd_of_token hl htoken.symm)]

end Cursor
end RightOfWay
