import Mathlib.Data.List.TakeWhile
import RightOfWay.Proofs.Rules.Cutting
import RightOfWay.Proofs.Rules.LineEnd

/-!
# Texts one behind the other

The pieces of a text stay what they are when it goes on behind a line end (`cut_line`).  The reason
is that the lexer looks one character beyond a piece at most.  A piece with something behind it is
the same whatever comes further behind (`lexeme_append`), and a line end belongs to no piece in
front of it (`lexeme_lineEnd`).

Only texts with faults are different, because an open string or an open comment can go on.

`Writes cs ks` says that a text has no faults and which tokens are written in it.
-/

set_option autoImplicit false

namespace RightOfWay

/-! ## Further behind -/

/-- A text that has a first character keeps it. -/
theorem ne_cons_append {d : Char} {cs : List Char} (hcs : cs ≠ [])
    (h : ∀ rest, cs = d :: rest → False) {ds : List Char} (rest : List Char)
    (heq : cs ++ ds = d :: rest) : False := by
  obtain ⟨c, cs, rfl⟩ := List.exists_cons_of_ne_nil hcs
  obtain ⟨rfl, -⟩ := List.cons.inj heq
  exact h _ rfl

/-- Where a span ends, it ends. -/
theorem span_append {p : Char → Bool} {cs : List Char} (h : cs.dropWhile p ≠ []) (ds : List Char) :
    (cs ++ ds).takeWhile p = cs.takeWhile p ∧
      (cs ++ ds).dropWhile p = cs.dropWhile p ++ ds := by
  induction cs with
  | nil => exact absurd rfl h
  | cons c cs ih =>
    by_cases hc : p c = true
    · rw [List.dropWhile_cons_of_pos hc] at h
      obtain ⟨htake, hdrop⟩ := ih h
      simp only [List.cons_append, List.takeWhile_cons_of_pos hc, List.dropWhile_cons_of_pos hc,
        htake, hdrop, and_self]
    · simp only [List.cons_append, List.takeWhile_cons_of_neg hc, List.dropWhile_cons_of_neg hc,
        and_self]

namespace Lexeme

/-- The lexeme of a text that goes on. -/
def extend (ds : List Char) (l : Lexeme) : Lexeme := { l with rest := l.rest ++ ds }

variable {c : Char} {cs text rest : List Char} {l : Lexeme}

theorem closeComment_append (h : closeComment cs = some (text, rest)) (ds : List Char) :
    closeComment (cs ++ ds) = some (text, rest ++ ds) := by
  fun_induction closeComment cs generalizing text with
  | case1 =>
    cases h
    rfl
  | case2 c cs hopen ih =>
    simp only [Option.map_eq_some_iff, Prod.mk.injEq] at h
    obtain ⟨⟨t, r⟩, hr, rfl, rfl⟩ := h
    have hcs : cs ≠ [] := by
      rintro rfl
      cases hr
    rw [List.cons_append, closeComment, ih hr]
    · rfl
    · exact fun rest hstar ↦ ne_cons_append hcs (fun _ ↦ hopen _ hstar) rest
  | case3 => cases h

theorem closeDirective_append (h : closeDirective cs = some (text, rest)) (ds : List Char) :
    closeDirective (cs ++ ds) = some (text, rest ++ ds) := by
  fun_induction closeDirective cs generalizing text with
  | case1 => cases h
  | case2 =>
    cases h
    rfl
  | case3 c cs hc ih =>
    simp only [Option.map_eq_some_iff, Prod.mk.injEq] at h
    obtain ⟨⟨t, r⟩, hr, rfl, rfl⟩ := h
    rw [List.cons_append, closeDirective, if_neg hc, ih hr]
    rfl

theorem closeString_append (h : closeString cs = some (text, rest)) (ds : List Char) :
    closeString (cs ++ ds) = some (text, rest ++ ds) := by
  fun_induction closeString cs generalizing text with
  | case1 c cs ih =>
    simp only [Option.map_eq_some_iff, Prod.mk.injEq] at h
    obtain ⟨⟨t, r⟩, hr, rfl, rfl⟩ := h
    rw [List.cons_append, List.cons_append, closeString, ih hr]
    rfl
  | case2 =>
    cases h
    rfl
  | case3 c cs hescape hquote ih =>
    simp only [Option.map_eq_some_iff, Prod.mk.injEq] at h
    obtain ⟨⟨t, r⟩, hr, rfl, rfl⟩ := h
    have hcs : cs ≠ [] := by
      rintro rfl
      cases hr
    rw [List.cons_append, closeString, ih hr]
    · rfl
    · rintro d rest rfl heq
      obtain ⟨d', cs, rfl⟩ := List.exists_cons_of_ne_nil hcs
      exact hescape d' cs rfl rfl
    · exact hquote
  | case4 => cases h

theorem word_append {token : String → Token} (h : (word c cs token).rest ≠ []) (ds : List Char) :
    word c (cs ++ ds) token = (word c cs token).extend ds := by
  obtain ⟨htake, hdrop⟩ := span_append h ds
  rw [word, word, htake, hdrop]
  rfl

theorem comment_append (h : comment c cs = .ok l) (hrest : l.rest ≠ []) (ds : List Char) :
    comment c (cs ++ ds) = .ok (l.extend ds) := by
  fun_cases comment c cs with
  | case1 inner text rest hclose =>
    rw [comment, hclose] at h
    cases h
    rw [List.cons_append, comment, closeComment_append hclose ds]
    rfl
  | case2 inner hclose =>
    rw [comment, hclose] at h
    cases h
  | case3 =>
    rename_i hblock
    rw [comment] at h
    · cases h
      have hcs : cs ≠ [] := by
        rintro rfl
        exact hrest rfl
      obtain ⟨htake, hdrop⟩ := span_append hrest ds
      rw [comment, htake, hdrop]
      · rfl
      · exact ne_cons_append hcs hblock
    · exact hblock

theorem directive_append (h : directive c cs = .ok l) (ds : List Char) :
    directive c (cs ++ ds) = .ok (l.extend ds) := by
  rcases cs with _ | ⟨first, inner⟩
  · cases h
  rw [directive] at h
  split at h
  · rename_i hfirst
    dsimp only at h
    split at h
    · rename_i hname
      split at h
      · rename_i text rest hclose
        cases h
        -- the period stands behind the name
        have hne : inner.dropWhile isWordChar ≠ [] := by
          intro hnil
          rw [hnil] at hclose
          cases hclose
        obtain ⟨htake, hdrop⟩ := span_append hne ds
        rw [List.cons_append, directive, if_pos hfirst]
        dsimp only
        rw [htake, hdrop, if_pos hname, closeDirective_append hclose ds]
        rfl
      · cases h
    · cases h
  · cases h

theorem integer_append (h : integer c cs = .ok l) (hrest : l.rest ≠ []) (ds : List Char) :
    integer c (cs ++ ds) = .ok (l.extend ds) := by
  rw [integer] at h
  split at h
  · rename_i value hvalue
    cases h
    obtain ⟨htake, hdrop⟩ := span_append hrest ds
    simp only [integer, htake, hdrop, hvalue]
    rfl
  · cases h

theorem string_append (h : string c cs = .ok l) (ds : List Char) :
    string c (cs ++ ds) = .ok (l.extend ds) := by
  rw [string] at h
  split at h
  · rename_i hclose
    cases h
    rw [string, closeString_append hclose ds]
    rfl
  · cases h

theorem inequality_append {alone withEqual : Comparison}
    (h : (inequality c cs alone withEqual).rest ≠ []) (ds : List Char) :
    inequality c (cs ++ ds) alone withEqual = (inequality c cs alone withEqual).extend ds := by
  fun_cases inequality c cs alone withEqual with
  | case1 rest => rfl
  | case2 =>
    rename_i hequal
    have hcs : cs ≠ [] := by
      rintro rfl
      exact h rfl
    rw [inequality]
    · rfl
    · exact ne_cons_append hcs hequal

theorem sign_append (h : sign c cs = .ok l) (hrest : l.rest ≠ []) (ds : List Char) :
    sign c (cs ++ ds) = .ok (l.extend ds) := by
  fun_cases sign c cs with
  | case1 => exact comment_append h hrest ds
  | case2 => exact directive_append h ds
  | case3 | case4 | case5 | case6 | case7 | case9 =>
    cases h
    rfl
  | case8 =>
    rename_i hprovided
    rw [sign] at h
    · cases h
    · exact hprovided
  | case10 =>
    rename_i hunequal
    rw [sign] at h
    · cases h
    · exact hunequal
  | case11 | case12 | case13 =>
    cases h
    exact congrArg Except.ok (inequality_append hrest ds)
  | case14 =>
    rw [sign] at h
    · cases h
    all_goals assumption

end Lexeme

open Lexeme in
/-- **A piece with something behind it is the same whatever comes further behind.** -/
theorem lexeme_append {c : Char} {cs : List Char} {l : Lexeme} (h : lexeme c cs = .ok l)
    (hrest : l.rest ≠ []) (ds : List Char) : lexeme c (cs ++ ds) = .ok (l.extend ds) := by
  rw [lexeme] at h ⊢
  split at h
  · rename_i hblank
    cases h
    exact if_pos hblank
  rename_i hblank
  rw [if_neg hblank]
  split at h
  · rename_i hquote
    rw [if_pos hquote]
    exact string_append h ds
  rename_i hquote
  rw [if_neg hquote]
  split at h
  · rename_i hdigit
    rw [if_pos hdigit]
    exact integer_append h hrest ds
  rename_i hdigit
  rw [if_neg hdigit]
  split at h
  · rename_i hlower
    cases h
    rw [if_pos hlower, word_append hrest ds]
  rename_i hlower
  rw [if_neg hlower]
  split at h
  · rename_i hupper
    cases h
    rw [if_pos hupper, word_append hrest ds]
  · rename_i hupper
    rw [if_neg hupper]
    exact sign_append h hrest ds

/-! ## Lines -/

/-- A piece is the same if the text goes on on another line. -/
theorem lexeme_line {c : Char} {cs : List Char} {l : Lexeme} (h : lexeme c cs = .ok l)
    (ds : List Char) : lexeme c (cs ++ '\n' :: ds) = .ok (l.extend ('\n' :: ds)) := by
  have hline := lexeme_lineEnd c cs
  rw [h] at hline
  have hnext := lexeme_append hline (List.append_ne_nil_of_right_ne_nil _ (by simp)) ds
  simpa only [Lexeme.before, Lexeme.extend, List.append_assoc, List.singleton_append] using hnext

/-- A line end, which is no token. -/
def Piece.lineEnd : Piece := ⟨none, ['\n']⟩

theorem cut_lineEnd_cons (ds : List Char) :
    cut ('\n' :: ds) = (.lineEnd :: (cut ds).1, (cut ds).2) :=
  cut_of_ok (l := ⟨none, ['\n'], ds⟩) rfl

/-- **A text without faults stays what it is if it goes on on another line.** -/
theorem cut_line {cs : List Char} (h : (cut cs).2 = none) (ds : List Char) :
    cut (cs ++ '\n' :: ds) = ((cut cs).1 ++ .lineEnd :: (cut ds).1, (cut ds).2) := by
  fun_induction cut cs with
  | case1 => exact cut_lineEnd_cons ds
  | case2 => cases h
  | case3 c cs l hl ps fault hcut ih =>
    rw [hcut] at ih
    have hrest : (l.extend ('\n' :: ds)).rest = l.rest ++ '\n' :: ds := rfl
    rw [List.cons_append, cut_of_ok (lexeme_line hl ds), hrest, ih h]
    rfl

/-! ## What is written in a text -/

/-- The text is without faults, and these tokens are written in it. -/
def Writes (cs : List Char) (ks : List Token) : Prop := (cut cs).2 = none ∧ written (cut cs).1 = ks

section Writes

variable {cs ds : List Char} {ks ms : List Token} {text : String}

theorem writes_of_tokens {ts : List Located} (h : tokens text = .ok ts) :
    Writes text.toList (writtenTokens text) := ⟨(scan_eq_ok_iff.1 h).1, rfl⟩

theorem Writes.exists_tokens (h : Writes text.toList ks) :
    ∃ ts, tokens text = .ok ts ∧ ts.map Located.token = number 0 ks := by
  obtain ⟨hcut, rfl⟩ := h
  exact ⟨_, scan_eq_ok_iff.2 ⟨hcut, rfl⟩, token_locate⟩

theorem Writes.nil : Writes [] [] := by
  rw [Writes, cut_nil]
  exact ⟨rfl, rfl⟩

/-- What is written on other lines is written behind. -/
theorem Writes.line (h : Writes cs ks) (h' : Writes ds ms) :
    Writes (cs ++ '\n' :: ds) (ks ++ ms) := by
  obtain ⟨hcs, rfl⟩ := h
  obtain ⟨hds, rfl⟩ := h'
  rw [Writes, cut_line hcs]
  exact ⟨hds, List.filterMap_append⟩

/-- A line end at the end is not needed. -/
theorem Writes.of_lineEnd (h : Writes (cs ++ ['\n']) ks) : Writes cs ks := by
  obtain ⟨hcut, rfl⟩ := h
  have hscan : scan 1 0 cs = .ok (locate 1 0 (cut (cs ++ ['\n'])).1) := by
    rw [← scan_lineEnd]
    exact scan_eq_ok_iff.2 ⟨hcut, rfl⟩
  obtain ⟨hcs, -⟩ := scan_eq_ok_iff.1 hscan
  obtain ⟨-, hwritten⟩ := Writes.line ⟨hcs, rfl⟩ .nil
  rw [hwritten, List.append_nil]
  exact ⟨hcs, rfl⟩

/-- A comment on a single line, behind its `%`. -/
structure IsRemark (cs : List Char) : Prop where
  no_block : cs.head? ≠ some '*'
  no_line_end : '\n' ∉ cs

theorem IsRemark.lexeme_eq (h : IsRemark cs) : lexeme '%' cs = .ok ⟨none, '%' :: cs, []⟩ := by
  have hspan : ∀ c ∈ cs, decide (c ≠ '\n') = true := fun c hc ↦
    decide_eq_true fun hend ↦ h.no_line_end (hend ▸ hc)
  show Lexeme.comment '%' cs = _
  rw [Lexeme.comment, List.takeWhile_eq_self_iff.2 hspan, List.dropWhile_eq_nil_iff.2 hspan]
  rintro inner rfl
  exact h.no_block rfl

/-- Nothing is written in a comment. -/
theorem IsRemark.writes (h : IsRemark cs) : Writes ('%' :: cs) [] := by
  rw [Writes, cut_of_ok h.lexeme_eq, cut_nil]
  exact ⟨rfl, rfl⟩

/-- Below a comment, a text is read as it would be on the line that it is on. -/
theorem IsRemark.scan_line (h : IsRemark cs) (line seen : Nat) :
    scan line seen ('%' :: cs ++ '\n' :: ds) = scan (line + 1) seen ds := by
  have hremark : ('%' :: cs).count '\n' = 0 := by
    rw [List.count_cons_of_ne (by decide), List.count_eq_zero_of_not_mem h.no_line_end]
  have hline : scan line seen ('%' :: cs ++ '\n' :: ds) = scan line seen ('\n' :: ds) := by
    rw [List.cons_append, scan_of_skipped (lexeme_line h.lexeme_eq ds) rfl, Lexeme.lineAfter]
    exact congrArg (fun n ↦ scan (line + n) seen ('\n' :: ds)) hremark
  rw [hline]
  exact scan_of_skipped (l := ⟨none, ['\n'], ds⟩) rfl rfl

end Writes

end RightOfWay
