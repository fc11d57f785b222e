import RightOfWay.Proofs.Rules.LineShift

/-!
# A line end behind a text

A section of a program gets a line end if it has none.  That must not turn a faulty text into a good
one or change what a good one means: an open string or an open comment stays open, and a comment
that runs to the end of the text ends there all the same.

Every piece of text that a lexeme can start with is treated on its own, as in the lexer, and
`scan_lineEnd` puts them together: the tokens and the faults of a text are the same with a line end
behind it.
-/

set_option autoImplicit false

namespace RightOfWay

theorem takeWhile_lineEnd {p : Char → Bool} (h : p '\n' = false) (cs : List Char) :
    (cs ++ ['\n']).takeWhile p = cs.takeWhile p := by
  induction cs with
  | nil => simp [h]
  | cons c cs ih =>
    rw [List.cons_append, List.takeWhile_cons, List.takeWhile_cons, ih]

theorem dropWhile_lineEnd {p : Char → Bool} (h : p '\n' = false) (cs : List Char) :
    (cs ++ ['\n']).dropWhile p = cs.dropWhile p ++ ['\n'] := by
  induction cs with
  | nil => simp [h]
  | cons c cs ih =>
    rw [List.cons_append, List.dropWhile_cons, List.dropWhile_cons, ih]
    split <;> rfl

/-- A text starts with no other characters than before. -/
theorem ne_cons_lineEnd {d : Char} (hd : d ≠ '\n') {cs : List Char}
    (h : ∀ rest, cs = d :: rest → False) (rest : List Char) (heq : cs ++ ['\n'] = d :: rest) :
    False := by
  rcases cs with _ | ⟨c, cs⟩
  · exact hd (List.cons.inj heq).1.symm
  · obtain ⟨rfl, -⟩ := List.cons.inj heq
    exact h _ rfl

namespace Lexeme

/-- A cut of a text with a line end behind it. -/
def cutBefore (cut : List Char × List Char) : List Char × List Char := (cut.1, cut.2 ++ ['\n'])

/-- The lexeme of a text with a line end behind it. -/
def before (l : Lexeme) : Lexeme := { l with rest := l.rest ++ ['\n'] }

theorem closeComment_lineEnd (cs : List Char) :
    closeComment (cs ++ ['\n']) = (closeComment cs).map cutBefore := by
  fun_induction closeComment cs with
  | case1 => rfl
  | case2 c cs hopen ih =>
    rw [List.cons_append, closeComment, ih, Option.map_map, Option.map_map]
    · rfl
    · exact fun rest hstar ↦ ne_cons_lineEnd (by decide) (fun _ ↦ hopen _ hstar) rest
  | case3 => rfl

theorem closeDirective_lineEnd (cs : List Char) :
    closeDirective (cs ++ ['\n']) = (closeDirective cs).map cutBefore := by
  induction cs with
  | nil => rfl
  | cons c cs ih =>
    rw [List.cons_append, closeDirective, closeDirective, ih]
    split
    · rfl
    · rw [Option.map_map, Option.map_map]
      rfl

theorem closeString_lineEnd (cs : List Char) :
    closeString (cs ++ ['\n']) = (closeString cs).map cutBefore := by
  fun_induction closeString cs with
  | case1 c cs ih =>
    rw [List.cons_append, List.cons_append, closeString, ih, Option.map_map, Option.map_map]
    rfl
  | case2 => rfl
  | case3 c cs hescape hquote ih =>
    by_cases hc : c = '\\'
    · -- a backslash at the end of the text takes the line end along
      rcases cs with _ | ⟨d, cs⟩
      · rw [hc]
        rfl
      · exact (hescape d cs hc rfl).elim
    · rw [List.cons_append, closeString, ih, Option.map_map, Option.map_map]
      · rfl
      · exact fun _ _ heq ↦ absurd heq hc
      · exact hquote
  | case4 => rfl

theorem word_lineEnd (c : Char) (cs : List Char) (token : String → Token) :
    word c (cs ++ ['\n']) token = (word c cs token).before := by
  have hend : isWordChar '\n' = false := by decide
  rw [word, word, takeWhile_lineEnd hend, dropWhile_lineEnd hend]
  rfl

theorem comment_lineEnd (c : Char) (cs : List Char) :
    comment c (cs ++ ['\n']) = (comment c cs).map before := by
  fun_cases comment c cs with
  | case1 inner text rest h =>
    rw [List.cons_append, comment, closeComment_lineEnd, h]
    rfl
  | case2 inner h =>
    rw [List.cons_append, comment, closeComment_lineEnd, h]
    rfl
  | case3 =>
    rename_i hblock
    have hend : decide ('\n' ≠ '\n') = false := by decide
    rw [comment, takeWhile_lineEnd hend, dropWhile_lineEnd hend]
    · rfl
    · exact ne_cons_lineEnd (by decide) hblock

theorem directive_lineEnd (c : Char) (cs : List Char) :
    directive c (cs ++ ['\n']) = (directive c cs).map before := by
  rcases cs with _ | ⟨first, inner⟩
  · rfl
  · have hend : isWordChar '\n' = false := by decide
    rw [List.cons_append, directive, directive, takeWhile_lineEnd hend, dropWhile_lineEnd hend,
      closeDirective_lineEnd]
    split
    · dsimp only
      split
      · rcases closeDirective (inner.dropWhile isWordChar) with _ | ⟨text, rest⟩ <;> rfl
      · rfl
    · rfl

theorem integer_lineEnd (c : Char) (cs : List Char) :
    integer c (cs ++ ['\n']) = (integer c cs).map before := by
  have hend : Char.isDigit '\n' = false := by decide
  simp only [integer, takeWhile_lineEnd hend, dropWhile_lineEnd hend]
  split <;> rfl

theorem string_lineEnd (c : Char) (cs : List Char) :
    string c (cs ++ ['\n']) = (string c cs).map before := by
  rw [string, string, closeString_lineEnd]
  rcases closeString cs with _ | ⟨text, rest⟩ <;> rfl

theorem inequality_lineEnd (c : Char) (cs : List Char) (alone withEqual : Comparison) :
    inequality c (cs ++ ['\n']) alone withEqual = (inequality c cs alone withEqual).before := by
  fun_cases inequality c cs alone withEqual with
  | case1 rest => rfl
  | case2 =>
    rename_i hequal
    rw [inequality]
    · rfl
    · exact ne_cons_lineEnd (by decide) hequal

theorem sign_lineEnd (c : Char) (cs : List Char) :
    sign c (cs ++ ['\n']) = (sign c cs).map before := by
  fun_cases sign c cs with
  | case1 => exact comment_lineEnd '%' cs
  | case2 => exact directive_lineEnd '#' cs
  | case3 | case4 | case5 | case6 | case7 | case9 => rfl
  | case8 =>
    rename_i hprovided
    rw [sign]
    · rfl
    · exact ne_cons_lineEnd (by decide) hprovided
  | case10 =>
    rename_i hunequal
    rw [sign]
    · rfl
    · exact ne_cons_lineEnd (by decide) hunequal
  | case11 => exact congrArg Except.ok (inequality_lineEnd '=' cs .eq .eq)
  | case12 => exact congrArg Except.ok (inequality_lineEnd '<' cs .lt .le)
  | case13 => exact congrArg Except.ok (inequality_lineEnd '>' cs .gt .ge)
  | case14 =>
    rw [sign]
    · rfl
    all_goals simp_all only [imp_false, implies_true]

end Lexeme

open Lexeme in
theorem lexeme_lineEnd (c : Char) (cs : List Char) :
    lexeme c (cs ++ ['\n']) = (lexeme c cs).map before := by
  rw [lexeme, lexeme, string_lineEnd, integer_lineEnd, word_lineEnd, word_lineEnd, sign_lineEnd]
  split
  · rfl
  split
  · rfl
  split
  · rfl
  split
  · rfl
  split <;> rfl

/-- **A line end behind a text changes nothing**: the tokens are the same, or the fault is. -/
theorem scan_lineEnd (line seen : Nat) (cs : List Char) :
    scan line seen (cs ++ ['\n']) = scan line seen cs := by
  fun_induction scan line seen cs with
  | case1 line seen =>
    rw [List.nil_append, scan_of_skipped (l := ⟨none, ['\n'], []⟩) rfl rfl, scan_nil]
  | case2 line seen c cs fault h =>
    have hend := lexeme_lineEnd c cs
    rw [h] at hend
    exact scan_of_error hend
  | case3 line seen c cs l h htoken ih =>
    have hend := lexeme_lineEnd c cs
    rw [h] at hend
    exact (scan_of_skipped hend htoken).trans ih
  | case4 line seen c cs l h htoken ih =>
    have hend := lexeme_lineEnd c cs
    rw [h] at hend
    exact (scan_of_anonymous hend htoken).trans (congrArg _ ih)
  | case5 line seen c cs l h token htoken hnamed ih =>
    have hend := lexeme_lineEnd c cs
    rw [h] at hend
    exact (scan_of_token hend htoken hnamed).trans (congrArg _ ih)

end RightOfWay
