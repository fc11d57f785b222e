import RightOfWay.Rules.Grammar

/-!
# Moving a program down

A rule text that is read behind other text finds itself on later lines.  Apart from that nothing may
change, and this file says so for every layer of the reader: what is read from a text that starts
`n` lines further down is what is read from it on its own, with `n` added to every line.

* `scan_shift` is about tokens, for texts with and without faults.
* `Grammar.statements_shift` is about rules.  The readers below it are treated one by one, in the
  order in which they are built on one another.
-/

set_option autoImplicit false

namespace RightOfWay

/-! ## Lines increased -/

/-- The same token `n` lines further down. -/
def Located.shift (n : Nat) (t : Located) : Located := { t with line := t.line + n }

@[simp] theorem Located.token_shift (n : Nat) (t : Located) : (t.shift n).token = t.token := rfl

@[simp] theorem Located.line_shift (n : Nat) (t : Located) : (t.shift n).line = t.line + n := rfl

/-- The same fault `n` lines further down. -/
def SyntaxError.shift (n : Nat) (e : SyntaxError) : SyntaxError := { e with line := e.line + n }

/-- The same rule `n` lines further down. -/
def Rule.shift (n : Nat) (r : Rule) : Rule := { r with line := r.line + n }

/-- The same error `n` lines further down. -/
def RuleError.shift (n : Nat) : RuleError → RuleError
  | unreadable e => unreadable (e.shift n)
  | unsafeRule line variableName => unsafeRule (line + n) variableName

/-- The same reading from tokens `n` lines further down. -/
def Reading.shift {α : Type} (n : Nat) : Reading α → Reading α
  | .error e => .error (e.shift n)
  | .ok (a, rest) => .ok (a, rest.map (Located.shift n))

theorem Reading.as_shift {α β : Type} (n : Nat) (f : α → β) (r : Reading α) :
    (r.shift n).as f = (r.as f).shift n := by
  rcases r with e | ⟨a, rest⟩ <;> rfl

/-- The tokens or the fault of a text `n` lines further down. -/
def shiftScan (n : Nat) : Except SyntaxError (List Located) → Except SyntaxError (List Located)
  | .error e => .error (e.shift n)
  | .ok ts => .ok (ts.map (Located.shift n))

theorem shiftScan_map_cons (n : Nat) (t : Located) (ts : Except SyntaxError (List Located)) :
    shiftScan n (ts.map (t :: ·)) = (shiftScan n ts).map (t.shift n :: ·) := by
  cases ts <;> rfl

/-! ## Tokens -/

section Scan

variable {line seen : Nat} {c : Char} {cs : List Char} {l : Lexeme}

theorem scan_nil (line seen : Nat) : scan line seen [] = .ok [] := by
  rw [scan.eq_def]

theorem scan_of_error {fault : Fault} (h : lexeme c cs = .error fault) :
    scan line seen (c :: cs) = .error ⟨line, fault⟩ := by
  rw [scan.eq_def]
  dsimp only
  split
  · rename_i h'
    cases h.symm.trans h'
    rfl
  · rename_i h'
    cases h.symm.trans h'

theorem scan_of_ok (h : lexeme c cs = .ok l) :
    scan line seen (c :: cs) =
      match l.token? with
      | none => scan (l.lineAfter line) seen l.rest
      | some token =>
        if token = .var "_" then
          (scan (l.lineAfter line) (seen + 1) l.rest).map
            (⟨.var (anonymousName (seen + 1)), line⟩ :: ·)
        else (scan (l.lineAfter line) seen l.rest).map (⟨token, line⟩ :: ·) := by
  rw [scan.eq_def]
  dsimp only
  split
  · rename_i h'
    cases h.symm.trans h'
  · rename_i h'
    cases h.symm.trans h'
    rfl

theorem scan_of_skipped (h : lexeme c cs = .ok l) (htoken : l.token? = none) :
    scan line seen (c :: cs) = scan (l.lineAfter line) seen l.rest := by
  rw [scan_of_ok h, htoken]

theorem scan_of_anonymous (h : lexeme c cs = .ok l) (htoken : l.token? = some (.var "_")) :
    scan line seen (c :: cs) = (scan (l.lineAfter line) (seen + 1) l.rest).map
      (⟨.var (anonymousName (seen + 1)), line⟩ :: ·) := by
  rw [scan_of_ok h, htoken]
  exact if_pos rfl

theorem scan_of_token {token : Token} (h : lexeme c cs = .ok l) (htoken : l.token? = some token)
    (hnamed : token ≠ .var "_") :
    scan line seen (c :: cs) =
      (scan (l.lineAfter line) seen l.rest).map (⟨token, line⟩ :: ·) := by
  rw [scan_of_ok h, htoken]
  exact if_neg hnamed

end Scan

theorem Lexeme.lineAfter_add (l : Lexeme) (line n : Nat) :
    l.lineAfter (line + n) = l.lineAfter line + n := by
  simp only [Lexeme.lineAfter]
  omega

/-- **Scanning does not depend on where a text starts**, except for the lines it reports. -/
theorem scan_shift (n line seen : Nat) (cs : List Char) :
    scan (line + n) seen cs = shiftScan n (scan line seen cs) := by
  fun_induction scan line seen cs with
  | case1 line seen => rw [scan_nil]; rfl
  | case2 line seen c cs fault h => rw [scan_of_error h]; rfl
  | case3 line seen c cs l h htoken ih => rw [scan_of_skipped h htoken, Lexeme.lineAfter_add, ih]
  | case4 line seen c cs l h htoken ih =>
    rw [scan_of_anonymous h htoken, Lexeme.lineAfter_add, ih, shiftScan_map_cons]
    rfl
  | case5 line seen c cs l h token htoken hnamed ih =>
    rw [scan_of_token h htoken hnamed, Lexeme.lineAfter_add, ih, shiftScan_map_cons]
    rfl

/-! ## Parts of a rule -/

namespace Grammar

section Readers

variable (n last : Nat)

@[simp] theorem head?_shift (ts : List Located) :
    (ts.map (Located.shift n)).head?.map Located.token = ts.head?.map Located.token := by
  cases ts <;> rfl

theorem lineOf_shift (ts : List Located) :
    lineOf (last + n) (ts.map (Located.shift n)) = lineOf last ts + n := by
  cases ts <;> rfl

theorem missing_shift (wanted : Wanted) (ts : List Located) :
    missing (last + n) wanted (ts.map (Located.shift n)) = (missing last wanted ts).shift n := by
  rw [missing, lineOf_shift, head?_shift]
  rfl

theorem arg_shift (ts : List Located) :
    arg (last + n) (ts.map (Located.shift n)) = (arg last ts).shift n := by
  cases ts with
  | nil => rfl
  | cons t ts =>
    simp only [List.map_cons, arg, head?_shift, Located.token_shift]
    cases argOfToken? t.token with
    | none => exact congrArg Except.error (missing_shift n last .term (t :: ts))
    | some a =>
      dsimp only
      split <;> rfl

theorem args_shift (line : Nat) (ts : List Located) :
    args (last + n) (line + n) (ts.map (Located.shift n)) = (args last line ts).shift n := by
  fun_induction args last line ts with
  | case1 => rfl
  | case2 t rest e h =>
    have hshift := arg_shift n last (t :: rest)
    rw [h, List.map_cons] at hshift
    rw [List.map_cons, args, hshift]
    rfl
  | case3 t a _ comma rest h ih =>
    have hshift := arg_shift n last (t :: ⟨.comma, comma⟩ :: rest)
    rw [h, List.map_cons, List.map_cons] at hshift
    rw [List.map_cons, List.map_cons, args, hshift]
    exact (congrArg _ ih).trans (Reading.as_shift n _ _)
  | case4 t a _ close rest h =>
    have hshift := arg_shift n last (t :: ⟨.closeParen, close⟩ :: rest)
    rw [h, List.map_cons, List.map_cons] at hshift
    rw [List.map_cons, List.map_cons, args, hshift]
    rfl
  | case5 t a _ rest hcomma hclose h =>
    have hshift := arg_shift n last (t :: rest)
    rw [h, List.map_cons] at hshift
    rw [List.map_cons, args, hshift]
    -- the token that is not expected is the same after the shift
    rcases rest with _ | ⟨⟨token, place⟩, rest⟩
    · rfl
    · cases token with
      | comma => exact (hcomma _ _ rfl).elim
      | closeParen => exact (hclose _ _ rfl).elim
      | _ => rfl

theorem pattern_shift (ts : List Located) :
    pattern (last + n) (ts.map (Located.shift n)) = (pattern last ts).shift n := by
  cases ts with
  | nil => rfl
  | cons t ts =>
    simp only [List.map_cons, pattern, Located.token_shift]
    cases predicateOfToken? t.token with
    | none => exact congrArg Except.error (missing_shift n last .predicate (t :: ts))
    | some predicate =>
      dsimp only
      rcases ts with _ | ⟨⟨token, place⟩, ts⟩
      · rfl
      · cases token with
        | openParen =>
          exact (congrArg _ (args_shift n last t.line ts)).trans (Reading.as_shift n _ _)
        | _ => rfl

theorem comparison_shift (ts : List Located) :
    comparison (last + n) (ts.map (Located.shift n)) = (comparison last ts).shift n := by
  rw [comparison, comparison, arg_shift]
  rcases arg last ts with e | ⟨lhs, ts⟩
  · rfl
  · rcases ts with _ | ⟨⟨token, place⟩, ts⟩
    · rfl
    · cases token with
      | comparison c => exact (congrArg _ (arg_shift n last ts)).trans (Reading.as_shift n _ _)
      | _ => rfl

theorem startsComparison_shift (ts : List Located) :
    startsComparison (ts.map (Located.shift n)) = startsComparison ts := by
  rcases ts with _ | ⟨⟨token, place⟩, ts⟩
  · rfl
  · cases token with
    | symbol text =>
      rcases ts with _ | ⟨⟨token, place⟩, ts⟩
      · rfl
      · cases token <;> rfl
    | _ => rfl

theorem literal_of_ne_negation {t : Located} (h : t.token ≠ .negation) (ts : List Located) :
    literal last (t :: ts) =
      if startsComparison (t :: ts) then comparison last (t :: ts)
      else (pattern last (t :: ts)).as .pos := by
  rcases t with ⟨token, place⟩
  cases token with
  | negation => exact absurd rfl h
  | _ => rfl

theorem literal_shift (ts : List Located) :
    literal (last + n) (ts.map (Located.shift n)) = (literal last ts).shift n := by
  rcases ts with _ | ⟨t, ts⟩
  · rfl
  by_cases hneg : t.token = .negation
  · rcases t with ⟨token, place⟩
    cases hneg
    exact (congrArg _ (pattern_shift n last ts)).trans (Reading.as_shift n _ _)
  · have hshifted : (t.shift n).token ≠ .negation := hneg
    rw [literal_of_ne_negation last hneg, List.map_cons, literal_of_ne_negation _ hshifted,
      ← List.map_cons, startsComparison_shift, comparison_shift, pattern_shift, Reading.as_shift]
    split <;> rfl

theorem period_shift (ts : List Located) :
    period (last + n) (ts.map (Located.shift n)) = (period last ts).shift n := by
  rcases ts with _ | ⟨⟨token, place⟩, ts⟩
  · rfl
  · cases token <;> rfl

end Readers

/-! ## Rules -/

section Equations

variable {last : Nat} {ts rest : List Located}

theorem body_of_error {e : SyntaxError} (h : literal last ts = .error e) :
    body last ts = .error e := by
  rw [body]
  split
  · rename_i h'
    cases h.symm.trans h'
    rfl
  all_goals
    rename_i h'
    cases h.symm.trans h'

theorem body_of_comma {l : Literal} {line : Nat}
    (h : literal last ts = .ok (l, ⟨.comma, line⟩ :: rest)) :
    body last ts = (body last rest).as (l :: ·) := by
  rw [body]
  split
  · rename_i h'
    cases h.symm.trans h'
  · rename_i h'
    cases h.symm.trans h'
    rfl
  · rename_i hcomma h'
    cases h.symm.trans h'
    exact (hcomma _ _ rfl).elim

theorem body_of_end {l : Literal} (h : literal last ts = .ok (l, rest))
    (hcomma : ∀ line rest', rest = ⟨.comma, line⟩ :: rest' → False) :
    body last ts = (period last rest).as fun _ ↦ [l] := by
  rw [body]
  split
  · rename_i h'
    cases h.symm.trans h'
  · rename_i h'
    cases h.symm.trans h'
    exact (hcomma _ _ rfl).elim
  · rename_i h'
    cases h.symm.trans h'
    rfl

theorem statement_of_ne_provided {t : Located} (h : t.token ≠ .provided) :
    statement last (t :: ts) =
      match pattern last (t :: ts) with
      | .error e => .error e
      | .ok (head, ⟨.period, _⟩ :: rest) => .ok (⟨some head, [], t.line⟩, rest)
      | .ok (head, ⟨.provided, _⟩ :: rest) => (body last rest).as (⟨some head, ·, t.line⟩)
      | .ok _ => .error ⟨t.line, .expectedEndOfHead⟩ := by
  rcases t with ⟨token, place⟩
  cases token with
  | provided => exact absurd rfl h
  | _ =>
    simp only [statement, lineOf]
    rcases pattern last (_ :: ts) with e | ⟨head, rest⟩
    · rfl
    · rcases rest with _ | ⟨⟨token, place⟩, rest⟩
      · rfl
      · cases token <;> rfl

theorem statements_nil (last : Nat) : statements last [] = ([], none) := by
  rw [statements.eq_def]

theorem statements_of_error {t : Located} {e : SyntaxError}
    (h : statement last (t :: ts) = .error e) : statements last (t :: ts) = ([], some e) := by
  rw [statements.eq_def]
  dsimp only
  split
  · rename_i h'
    cases h.symm.trans h'
    rfl
  · rename_i h'
    cases h.symm.trans h'

theorem statements_of_ok {r : Rule} (h : statement last ts = .ok (r, rest)) :
    statements last ts = (r :: (statements last rest).1, (statements last rest).2) := by
  rcases ts with _ | ⟨t, ts⟩
  · cases h
  rw [statements.eq_def]
  dsimp only
  split
  · rename_i h'
    cases h.symm.trans h'
  · rename_i h'
    cases h.symm.trans h'
    rfl

end Equations

variable (n last : Nat)

theorem body_shift (ts : List Located) :
    body (last + n) (ts.map (Located.shift n)) = (body last ts).shift n := by
  fun_induction body last ts with
  | case1 ts e h =>
    have hshift := literal_shift n last ts
    rw [h] at hshift
    exact body_of_error hshift
  | case2 ts l line rest h ih =>
    have hshift := literal_shift n last ts
    rw [h] at hshift
    rw [body_of_comma hshift, ih, Reading.as_shift]
  | case3 ts l rest hcomma h =>
    have hshift := literal_shift n last ts
    rw [h] at hshift
    rw [body_of_end hshift, period_shift, Reading.as_shift]
    intro line rest' heq
    rcases rest with _ | ⟨⟨token, place⟩, rest⟩
    · cases heq
    · cases heq
      exact hcomma _ _ rfl

theorem statement_shift (ts : List Located) :
    statement (last + n) (ts.map (Located.shift n)) =
      ((statement last ts).as (Rule.shift n)).shift n := by
  rcases ts with _ | ⟨t, ts⟩
  · rfl
  by_cases hprovided : t.token = .provided
  · rcases t with ⟨token, place⟩
    cases hprovided
    have hbody := body_shift n last ts
    simp only [List.map_cons, Located.shift, statement, lineOf, hbody]
    rcases body last ts with e | ⟨ls, rest⟩ <;> rfl
  · have hshifted : (t.shift n).token ≠ .provided := hprovided
    rw [statement_of_ne_provided hprovided, List.map_cons, statement_of_ne_provided hshifted,
      ← List.map_cons, pattern_shift]
    rcases pattern last (t :: ts) with e | ⟨head, rest⟩
    · rfl
    · rcases rest with _ | ⟨⟨token, place⟩, rest⟩
      · rfl
      · cases token with
        | provided =>
          have hbody := body_shift n last rest
          simp only [Reading.shift, List.map_cons, Located.shift, hbody]
          rcases body last rest with e | ⟨ls, rest⟩ <;> rfl
        | _ => rfl

/-- **Reading rules does not depend on where they start**, except for their lines. -/
theorem statements_shift (ts : List Located) :
    statements (last + n) (ts.map (Located.shift n)) =
      ((statements last ts).1.map (Rule.shift n),
        (statements last ts).2.map (SyntaxError.shift n)) := by
  fun_induction statements last ts with
  | case1 => exact statements_nil _
  | case2 t ts e h =>
    have hshift := statement_shift n last (t :: ts)
    rw [h] at hshift
    exact statements_of_error hshift
  | case3 t ts r rest h rs fault hrest ih =>
    have hshift := statement_shift n last (t :: ts)
    rw [h] at hshift
    rw [statements_of_ok hshift, ih, hrest]
    rfl

end Grammar
end RightOfWay
