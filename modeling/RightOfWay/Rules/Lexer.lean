import RightOfWay.Decimal.Integer
import RightOfWay.Rules.Token
import RightOfWay.Text.Blank

/-!
# From program text to tokens

A text is cut into lexemes: tokens, blanks, comments and directives.

* `lexeme` reads the lexeme at the front of a text.  What it consumes and what it leaves over make
  up the text, and it consumes something (`Lexeme.splits_of_lexeme`), so that repeating it comes to
  an end.
* `scan` repeats it, counts lines by the line ends in what was consumed, and gives each anonymous
  variable `_` a name of its own: `_1`, `_2` and so on, in the order of the text.

A comment goes from `%` to the end of its line, or from `%*` to `*%`.  The directives `#show` and
`#program` are skipped up to their period.
-/

set_option autoImplicit false

namespace RightOfWay

/-- A character of a name or a directive, after the first one. -/
def isWordChar (c : Char) : Bool := c.isAlphanum || c == '_' || c == '\''

/-- A piece at the front of a text. -/
structure Lexeme where
  /-- The token that it stands for; blanks, comments and directives stand for none. -/
  token? : Option Token
  spelling : List Char
  rest : List Char

namespace Lexeme

/-! ## Finding the end of a lexeme

Each of these cuts a text behind the first place where something ends, and fails if it never does.
-/

/-- The text up to the sign that closes a block comment, and the text behind it. -/
def closeComment : List Char → Option (List Char × List Char)
  | '*' :: '%' :: rest => some (['*', '%'], rest)
  | c :: rest => (closeComment rest).map fun (text, rest) ↦ (c :: text, rest)
  | [] => none

/-- The text up to the period that closes a directive, and the text behind it. -/
def closeDirective : List Char → Option (List Char × List Char)
  | [] => none
  | c :: rest =>
    if c = '.' then some (['.'], rest)
    else (closeDirective rest).map fun (text, rest) ↦ (c :: text, rest)

/-- The text up to the quote that closes a string, and the text behind it.  A backslash takes the
character behind it along, be it a quote. -/
def closeString : List Char → Option (List Char × List Char)
  | '\\' :: c :: rest => (closeString rest).map fun (text, rest) ↦ ('\\' :: c :: text, rest)
  | '"' :: rest => some (['"'], rest)
  | c :: rest => (closeString rest).map fun (text, rest) ↦ (c :: text, rest)
  | [] => none

theorem append_of_closeComment {cs text rest : List Char}
    (h : closeComment cs = some (text, rest)) :
    text ++ rest = cs := by
  fun_induction closeComment cs generalizing text with
  | case1 =>
    cases h
    rfl
  | case2 c cs _ ih =>
    simp only [Option.map_eq_some_iff, Prod.mk.injEq] at h
    obtain ⟨⟨t, r⟩, hr, rfl, rfl⟩ := h
    simp [ih hr]
  | case3 => simp at h

theorem append_of_closeDirective {cs text rest : List Char}
    (h : closeDirective cs = some (text, rest)) : text ++ rest = cs := by
  fun_induction closeDirective cs generalizing text with
  | case1 => simp at h
  | case2 =>
    cases h
    rfl
  | case3 c cs _ ih =>
    simp only [Option.map_eq_some_iff, Prod.mk.injEq] at h
    obtain ⟨⟨t, r⟩, hr, rfl, rfl⟩ := h
    simp [ih hr]

theorem append_of_closeString {cs text rest : List Char} (h : closeString cs = some (text, rest)) :
    text ++ rest = cs := by
  fun_induction closeString cs generalizing text with
  | case1 c cs ih =>
    simp only [Option.map_eq_some_iff, Prod.mk.injEq] at h
    obtain ⟨⟨t, r⟩, hr, rfl, rfl⟩ := h
    simp [ih hr]
  | case2 =>
    cases h
    rfl
  | case3 c cs _ _ ih =>
    simp only [Option.map_eq_some_iff, Prod.mk.injEq] at h
    obtain ⟨⟨t, r⟩, hr, rfl, rfl⟩ := h
    simp [ih hr]
  | case4 => simp at h

/-! ## Reading a lexeme

The functions below read the lexeme that starts with `c` and goes on in `cs`. -/

/-- A lexeme of a fixed spelling. -/
def fixed (token : Token) (spelling rest : List Char) : Lexeme := ⟨some token, spelling, rest⟩

/-- A name and the token that it makes. -/
def word (c : Char) (cs : List Char) (token : String → Token) : Lexeme :=
  let spelling := c :: cs.takeWhile isWordChar
  ⟨some (token (String.ofList spelling)), spelling, cs.dropWhile isWordChar⟩

/-- A comment, behind its `%`. -/
def comment (c : Char) (cs : List Char) : Except Fault Lexeme :=
  match cs with
  | '*' :: inner =>
    match closeComment inner with
    | some (text, rest) => .ok ⟨none, c :: '*' :: text, rest⟩
    | none => .error .unterminatedBlockComment
  | _ => .ok ⟨none, c :: cs.takeWhile (· ≠ '\n'), cs.dropWhile (· ≠ '\n')⟩

/-- A directive, behind its number sign. -/
def directive (c : Char) (cs : List Char) : Except Fault Lexeme :=
  match cs with
  | [] => .error .emptyDirective
  | first :: inner =>
    if first.isAlpha then
      let name := first :: inner.takeWhile isWordChar
      if name = "show".toList ∨ name = "program".toList then
        match closeDirective (inner.dropWhile isWordChar) with
        | some (text, rest) => .ok ⟨none, c :: name ++ text, rest⟩
        | none => .error .unterminatedDirective
      else .error (.unsupportedDirective (String.ofList name))
    else .error .emptyDirective

/-- A number: a digit or a minus sign, and all digits that follow. -/
def integer (c : Char) (cs : List Char) : Except Fault Lexeme :=
  let digits := cs.takeWhile Char.isDigit
  let value := if c = '-' then int64? true digits else int64? false (c :: digits)
  match value with
  | some value => .ok ⟨some (.int value), c :: digits, cs.dropWhile Char.isDigit⟩
  | none => .error (.invalidInteger (String.ofList (c :: digits)))

/-- A quoted string. -/
def string (c : Char) (cs : List Char) : Except Fault Lexeme :=
  match closeString cs with
  | some (text, rest) => .ok ⟨some (.symbol (String.ofList (c :: text))), c :: text, rest⟩
  | none => .error .unterminatedString

/-- A comparison sign that an equality sign may follow. -/
def inequality (c : Char) (cs : List Char) (alone withEqual : Comparison) : Lexeme :=
  match cs with
  | '=' :: rest => fixed (.comparison withEqual) [c, '='] rest
  | _ => fixed (.comparison alone) [c] cs

/-- A sign, a comment or a directive. -/
def sign : Char → List Char → Except Fault Lexeme
  | '%', cs => comment '%' cs
  | '#', cs => directive '#' cs
  | '(', cs => .ok (fixed .openParen ['('] cs)
  | ')', cs => .ok (fixed .closeParen [')'] cs)
  | ',', cs => .ok (fixed .comma [','] cs)
  | '.', cs => .ok (fixed .period ['.'] cs)
  | ':', '-' :: rest => .ok (fixed .provided [':', '-'] rest)
  | ':', _ => .error .expectedProvided
  | '!', '=' :: rest => .ok (fixed (.comparison .ne) ['!', '='] rest)
  | '!', _ => .error .expectedUnequal
  | '=', cs => .ok (inequality '=' cs .eq .eq)
  | '<', cs => .ok (inequality '<' cs .lt .le)
  | '>', cs => .ok (inequality '>' cs .gt .ge)
  | c, _ => .error (.unexpectedCharacter c)

end Lexeme

open Lexeme in
/-- The lexeme that starts with `c` and goes on in `cs`. -/
def lexeme (c : Char) (cs : List Char) : Except Fault Lexeme :=
  if Text.isBlank c then .ok ⟨none, [c], cs⟩
  else if c = '"' then string c cs
  else if c = '-' ∨ c.isDigit then integer c cs
  else if c.isLower then
    .ok (word c cs fun name ↦ if name = "not" then .negation else .symbol name)
  else if c.isUpper ∨ c = '_' then .ok (word c cs .var)
  else sign c cs

namespace Lexeme

/-- A lexeme accounts for its text: it consumes a piece at the front and leaves over the rest. -/
def Splits (l : Lexeme) (cs : List Char) : Prop := l.spelling ≠ [] ∧ l.spelling ++ l.rest = cs

theorem splits_word {c : Char} {cs : List Char} {token : String → Token} :
    (word c cs token).Splits (c :: cs) := by
  simp [Splits, word]

theorem splits_of_comment {c : Char} {cs : List Char} {l : Lexeme} (h : comment c cs = .ok l) :
    l.Splits (c :: cs) := by
  unfold comment at h
  split at h
  · split at h <;> cases h
    rename_i hclose
    simp [Splits, append_of_closeComment hclose]
  · cases h
    simp [Splits]

theorem splits_of_directive {c : Char} {cs : List Char} {l : Lexeme} (h : directive c cs = .ok l) :
    l.Splits (c :: cs) := by
  unfold directive at h
  split at h
  · cases h
  · split at h
    · dsimp only at h
      split at h
      · split at h <;> cases h
        rename_i hclose
        simp [Splits, append_of_closeDirective hclose]
      · cases h
    · cases h

theorem splits_of_integer {c : Char} {cs : List Char} {l : Lexeme} (h : integer c cs = .ok l) :
    l.Splits (c :: cs) := by
  unfold integer at h
  dsimp only at h
  split at h <;> cases h
  simp [Splits]

theorem splits_of_string {c : Char} {cs : List Char} {l : Lexeme} (h : string c cs = .ok l) :
    l.Splits (c :: cs) := by
  unfold string at h
  split at h <;> cases h
  rename_i hclose
  simp [Splits, append_of_closeString hclose]

theorem splits_inequality {c : Char} {cs : List Char} {alone withEqual : Comparison} :
    (inequality c cs alone withEqual).Splits (c :: cs) := by
  unfold inequality
  split <;> simp [Splits, fixed]

theorem splits_of_sign {c : Char} {cs : List Char} {l : Lexeme} (h : sign c cs = .ok l) :
    l.Splits (c :: cs) := by
  unfold sign at h
  split at h
  case h_1 => exact splits_of_comment h
  case h_2 => exact splits_of_directive h
  all_goals cases h
  all_goals first | exact splits_inequality | simp [Splits, fixed]

/-- Every lexeme accounts for the text it was read from. -/
theorem splits_of_lexeme {c : Char} {cs : List Char} {l : Lexeme} (h : lexeme c cs = .ok l) :
    l.Splits (c :: cs) := by
  unfold lexeme at h
  split at h
  · cases h
    simp [Splits]
  split at h
  · exact splits_of_string h
  split at h
  · exact splits_of_integer h
  split at h
  · cases h
    exact splits_word
  split at h
  · cases h
    exact splits_word
  · exact splits_of_sign h

theorem rest_length_lt {c : Char} {cs : List Char} {l : Lexeme} (h : lexeme c cs = .ok l) :
    l.rest.length < (c :: cs).length := by
  obtain ⟨hne, happend⟩ := splits_of_lexeme h
  rw [← happend, List.length_append]
  have := List.length_pos_iff.2 hne
  omega

/-- The line behind the lexeme, given the line on which it starts. -/
def lineAfter (l : Lexeme) (line : Nat) : Nat := line + l.spelling.count '\n'

end Lexeme

/-! ## The whole text -/

/-- The name of the `n`-th anonymous variable, counted from one. -/
def anonymousName (n : Nat) : String := "_" ++ toString n

/-- The tokens of a text that starts on the given line, after `seen` anonymous variables. -/
def scan (line seen : Nat) (cs : List Char) : Except SyntaxError (List Located) :=
  match cs with
  | [] => .ok []
  | c :: cs =>
    match _h : lexeme c cs with
    | .error fault => .error ⟨line, fault⟩
    | .ok l =>
      match l.token? with
      | none => scan (l.lineAfter line) seen l.rest
      | some token =>
        if token = .var "_" then
          (scan (l.lineAfter line) (seen + 1) l.rest).map
            (⟨.var (anonymousName (seen + 1)), line⟩ :: ·)
        else (scan (l.lineAfter line) seen l.rest).map (⟨token, line⟩ :: ·)
termination_by cs.length
decreasing_by all_goals exact Lexeme.rest_length_lt _h

/-- The tokens of a program text. -/
def tokens (text : String) : Except SyntaxError (List Located) := scan 1 0 text.toList

end RightOfWay
