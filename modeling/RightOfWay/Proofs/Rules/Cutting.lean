import RightOfWay.Proofs.Rules.LineShift

/-!
# How a text is cut

The lexer cuts a text into pieces, gives the anonymous variables among them their names and counts
lines, all in one go.  Here these are taken apart.

* `cut` gives the pieces alone, up to the first fault if there is one.  Put together they are the
  text again (`flatMap_spelling_cut`).
* `number` names anonymous variables, and `locate` does that and counts lines.
* `scan_eq` says that the lexer is `locate` after `cut`.

So the tokens of a text are what its author has written, with names for what he has left without
(`token_of_tokens`).
-/

set_option autoImplicit false

namespace RightOfWay

/-! ## Pieces -/

/-- A piece of a text, and the token that it stands for, if any. -/
structure Piece where
  token? : Option Token
  spelling : List Char
  deriving DecidableEq

/-- The pieces of a text up to a fault, and the fault. -/
def cut (cs : List Char) : List Piece × Option Fault :=
  match cs with
  | [] => ([], none)
  | c :: cs =>
    match _h : lexeme c cs with
    | .error fault => ([], some fault)
    | .ok l =>
      let (ps, fault) := cut l.rest
      (⟨l.token?, l.spelling⟩ :: ps, fault)
termination_by cs.length
decreasing_by exact Lexeme.rest_length_lt _h

section Cut

variable {c : Char} {cs : List Char} {l : Lexeme}

theorem cut_nil : cut [] = ([], none) := by
  rw [cut.eq_def]

theorem cut_of_error {fault : Fault} (h : lexeme c cs = .error fault) :
    cut (c :: cs) = ([], some fault) := by
  rw [cut.eq_def]
  dsimp only
  split
  · rename_i h'
    cases h.symm.trans h'
    rfl
  · rename_i h'
    cases h.symm.trans h'

theorem cut_of_ok (h : lexeme c cs = .ok l) :
    cut (c :: cs) = (⟨l.token?, l.spelling⟩ :: (cut l.rest).1, (cut l.rest).2) := by
  rw [cut.eq_def]
  dsimp only
  split
  · rename_i h'
    cases h.symm.trans h'
  · rename_i h'
    cases h.symm.trans h'
    rfl

/-- A text without a fault is what its pieces spell. -/
theorem flatMap_spelling_cut (h : (cut cs).2 = none) : (cut cs).1.flatMap Piece.spelling = cs := by
  fun_induction cut cs with
  | case1 => rfl
  | case2 => cases h
  | case3 c cs l hl ps fault hcut ih =>
    rw [hcut] at ih
    obtain ⟨-, happend⟩ := Lexeme.splits_of_lexeme hl
    rw [List.flatMap_cons, ih h, happend]

end Cut

/-! ## Names for anonymous variables -/

/-- An anonymous variable as it is written. -/
def Token.anonymous : Token := .var "_"

/-- The tokens that stand in the text, just as they are written. -/
def written (ps : List Piece) : List Token := ps.filterMap Piece.token?

/-- The tokens with names for anonymous variables, of which there were some before. -/
def number (seen : Nat) : List Token → List Token
  | [] => []
  | k :: ks =>
    if k = .anonymous then .var (anonymousName (seen + 1)) :: number (seen + 1) ks
    else k :: number seen ks

variable {seen : Nat} {k : Token} {ks ks' : List Token}

theorem number_cons_anonymous :
    number seen (.anonymous :: ks) = .var (anonymousName (seen + 1)) :: number (seen + 1) ks :=
  if_pos rfl

theorem number_cons (h : k ≠ .anonymous) : number seen (k :: ks) = k :: number seen ks := if_neg h

theorem number_append : number seen (ks ++ ks') =
    number seen ks ++ number (seen + ks.count .anonymous) ks' := by
  induction ks generalizing seen with
  | nil => rfl
  | cons k ks ih =>
    rw [List.cons_append]
    by_cases hk : k = .anonymous
    · rw [hk, number_cons_anonymous, number_cons_anonymous, ih, List.count_cons_self,
        Nat.add_right_comm, Nat.add_assoc]
      rfl
    · rw [number_cons hk, number_cons hk, ih, List.count_cons_of_ne hk]
      rfl

theorem length_number : (number seen ks).length = ks.length := by
  induction ks generalizing seen with
  | nil => rfl
  | cons k ks ih =>
    by_cases hk : k = .anonymous
    · rw [hk, number_cons_anonymous, List.length_cons, ih, List.length_cons]
    · rw [number_cons hk, List.length_cons, ih, List.length_cons]

/-- Tokens stay what they are, and an anonymous variable is called by how many there are up to
it. -/
theorem getElem?_number (i : Nat) : (number seen ks)[i]? = ks[i]?.map fun k ↦
    if k = .anonymous then .var (anonymousName (seen + (ks.take (i + 1)).count .anonymous))
    else k := by
  induction ks generalizing seen i with
  | nil => rfl
  | cons k ks ih =>
    by_cases hk : k = .anonymous
    · rw [hk, number_cons_anonymous]
      cases i with
      | zero => simp
      | succ i =>
        rw [List.getElem?_cons_succ, ih, List.getElem?_cons_succ, List.take_succ_cons,
          List.count_cons_self]
        simp only [Nat.add_assoc, Nat.add_comm 1]
    · rw [number_cons hk]
      cases i with
      | zero => simp [hk]
      | succ i =>
        rw [List.getElem?_cons_succ, ih, List.getElem?_cons_succ, List.take_succ_cons,
          List.count_cons_of_ne hk]

/-! ## Lines -/

/-- The line behind pieces that start on the given line. -/
def lineBehind (line : Nat) (ps : List Piece) : Nat :=
  line + (ps.flatMap Piece.spelling).count '\n'

/-- The tokens of pieces that start on the given line, with names for anonymous variables, of which
there were some before. -/
def locate (line seen : Nat) : List Piece → List Located
  | [] => []
  | p :: ps =>
    let behind := line + p.spelling.count '\n'
    match p.token? with
    | none => locate behind seen ps
    | some k =>
      if k = .anonymous then
        ⟨.var (anonymousName (seen + 1)), line⟩ :: locate behind (seen + 1) ps
      else ⟨k, line⟩ :: locate behind seen ps

section Locate

variable {line : Nat} {p : Piece} {ps : List Piece}

theorem lineBehind_cons :
    lineBehind line (p :: ps) = lineBehind (line + p.spelling.count '\n') ps := by
  rw [lineBehind, lineBehind, List.flatMap_cons, List.count_append, Nat.add_assoc]

theorem token_locate : (locate line seen ps).map Located.token = number seen (written ps) := by
  induction ps generalizing line seen with
  | nil => rfl
  | cons p ps ih =>
    obtain ⟨token, spelling⟩ := p
    cases token with
    | none => exact ih
    | some k =>
      have hwritten : written (⟨some k, spelling⟩ :: ps) = k :: written ps := rfl
      rw [hwritten, locate]
      dsimp only
      by_cases hk : k = .anonymous
      · rw [if_pos hk, hk, number_cons_anonymous, List.map_cons, ih]
      · rw [if_neg hk, number_cons hk, List.map_cons, ih]

/-- **The lexer cuts a text into pieces and locates their tokens**, or it stops at the first fault,
which is on the line behind the pieces in front of it. -/
theorem scan_eq (line seen : Nat) (cs : List Char) :
    scan line seen cs =
      match (cut cs).2 with
      | none => .ok (locate line seen (cut cs).1)
      | some fault => .error ⟨lineBehind line (cut cs).1, fault⟩ := by
  fun_induction scan line seen cs with
  | case1 line seen => rw [cut_nil]; rfl
  | case2 line seen c cs fault h => rw [cut_of_error h]; rfl
  | case3 line seen c cs l h htoken ih =>
    rw [cut_of_ok h, ih, Lexeme.lineAfter]
    dsimp only
    rw [htoken, lineBehind_cons, locate]
  | case4 line seen c cs l h htoken ih =>
    rw [cut_of_ok h, ih, Lexeme.lineAfter]
    dsimp only
    rw [htoken, lineBehind_cons, locate]
    cases (cut l.rest).2 <;> rfl
  | case5 line seen c cs l h token htoken hnamed ih =>
    rw [cut_of_ok h, ih, Lexeme.lineAfter]
    dsimp only
    rw [htoken, lineBehind_cons, locate]
    dsimp only
    rw [Token.anonymous, if_neg hnamed]
    cases (cut l.rest).2 <;> rfl

theorem scan_eq_ok_iff {cs : List Char} {ts : List Located} :
    scan line seen cs = .ok ts ↔ (cut cs).2 = none ∧ ts = locate line seen (cut cs).1 := by
  rw [scan_eq]
  cases (cut cs).2 with
  | none => simp [eq_comm]
  | some fault => simp

end Locate

/-- The tokens as the author of the text has written them. -/
def writtenTokens (text : String) : List Token := written (cut text.toList).1

/-- **The tokens of a text are those that are written in it**, with names for anonymous
variables. -/
theorem token_of_tokens {text : String} {ts : List Located} (h : tokens text = .ok ts) :
    ts.map Located.token = number 0 (writtenTokens text) := by
  obtain ⟨-, rfl⟩ := scan_eq_ok_iff.1 h
  exact token_locate

end RightOfWay
