import RightOfWay.Proofs.Rules.Cutting
import RightOfWay.Proofs.Rules.LineCount
import RightOfWay.Proofs.Rules.Sections

/-!
# Lines are those of the source

A line that is reported should be the one that an editor shows: one more than there are line ends in
front of what it is about.

* For tokens, `TokenAt` says where each of them stands, in terms of the pieces that the text is cut
  into.  Behind any number of pieces the line is one more than the line ends in these
  (`exists_piece_of_getElem?_locate`), whatever strings, comments and directives are among them.
* A fault is on the line where the lexeme starts that has it (`exists_place_of_fault`).
* A rule has the line of its first token.  That is so for all rules in front of a syntax error as
  well (`exists_part`), and so for the first one that is not safe.

`source_lines_exact` puts this together, and says that a lexer that counts line ends character by
character would report the same.
-/

set_option autoImplicit false

namespace RightOfWay

/-! ## Places -/

/-- Behind this text stands the token, and there are `i` tokens in it. -/
def TokenAt (cs : List Char) (i : Nat) (before : List Char) (k : Token) : Prop :=
  ∃ ps p qs, (cut cs).1 = ps ++ p :: qs ∧ p.token? = some k ∧ (written ps).length = i ∧
    ps.flatMap Piece.spelling = before

/-- A piece of a text has been read behind the pieces in front of it. -/
theorem exists_place_of_piece {cs : List Char} {ps qs : List Piece} {p : Piece}
    (h : (cut cs).1 = ps ++ p :: qs) :
    ∃ c rest l, cs = ps.flatMap Piece.spelling ++ c :: rest ∧ lexeme c rest = .ok l ∧
      l.token? = p.token? := by
  fun_induction cut cs generalizing ps with
  | case1 => simp at h
  | case2 => simp at h
  | case3 c cs l hl ps' fault hcut ih =>
    rw [hcut] at ih
    cases ps with
    | nil =>
      obtain ⟨rfl, -⟩ := List.cons.inj h
      exact ⟨c, cs, l, rfl, hl, rfl⟩
    | cons p' ps =>
      obtain ⟨rfl, htail⟩ := List.cons.inj h
      obtain ⟨d, rest, l', hrest, hl', htoken⟩ := ih htail
      refine ⟨d, rest, l', ?_, hl', htoken⟩
      rw [List.flatMap_cons, List.append_assoc, ← hrest]
      exact (Lexeme.splits_of_lexeme hl).2.symm

/-- A fault has been found behind all pieces. -/
theorem exists_place_of_fault {cs : List Char} {fault : Fault} (h : (cut cs).2 = some fault) :
    ∃ c rest, cs = (cut cs).1.flatMap Piece.spelling ++ c :: rest ∧
      lexeme c rest = .error fault := by
  fun_induction cut cs with
  | case1 => cases h
  | case2 c cs fault' hl =>
    cases h
    exact ⟨c, cs, rfl, hl⟩
  | case3 c cs l hl ps fault' hcut ih =>
    rw [hcut] at ih
    obtain ⟨d, rest, hrest, hfault⟩ := ih h
    refine ⟨d, rest, ?_, hfault⟩
    rw [List.flatMap_cons, List.append_assoc, ← hrest]
    exact (Lexeme.splits_of_lexeme hl).2.symm

theorem TokenAt.exists_lexeme {cs before : List Char} {i : Nat} {k : Token}
    (h : TokenAt cs i before k) :
    ∃ c rest l, cs = before ++ c :: rest ∧ lexeme c rest = .ok l ∧ l.token? = some k := by
  obtain ⟨ps, p, qs, hcut, htoken, -, rfl⟩ := h
  rw [← htoken]
  exact exists_place_of_piece hcut

/-! ## Tokens -/

section Locate

variable {line seen : Nat} {p : Piece} {ps : List Piece}

theorem locate_of_skipped (h : p.token? = none) :
    locate line seen (p :: ps) = locate (line + p.spelling.count '\n') seen ps := by
  rw [locate, h]

theorem locate_of_token {k : Token} (h : p.token? = some k) (line seen : Nat) (ps : List Piece) :
    ∃ k' seen', (k ≠ .anonymous → k' = k) ∧
      locate line seen (p :: ps) =
        ⟨k', line⟩ :: locate (line + p.spelling.count '\n') seen' ps := by
  rw [locate, h]
  dsimp only
  by_cases hk : k = .anonymous
  · exact ⟨_, _, fun hnamed ↦ absurd hk hnamed, if_pos hk⟩
  · exact ⟨_, _, fun _ ↦ rfl, if_neg hk⟩

/-- The piece that a token comes from starts on the line of the token. -/
theorem exists_piece_of_getElem?_locate {i : Nat} {t : Located}
    (h : (locate line seen ps)[i]? = some t) :
    ∃ front p behind k, ps = front ++ p :: behind ∧ p.token? = some k ∧
      (written front).length = i ∧ (k ≠ .anonymous → t.token = k) ∧
      t.line = lineBehind line front := by
  induction ps generalizing line seen i with
  | nil => simp [locate] at h
  | cons p ps ih =>
    cases hp : p.token? with
    | none =>
      rw [locate_of_skipped hp] at h
      obtain ⟨front, p', behind, k, rfl, hk, hlength, htoken, hline⟩ := ih h
      refine ⟨p :: front, p', behind, k, rfl, hk, ?_, htoken, hline.trans lineBehind_cons.symm⟩
      rw [written, List.filterMap_cons_none hp]
      exact hlength
    | some k =>
      obtain ⟨k', seen', hk', hlocate⟩ := locate_of_token hp line seen ps
      rw [hlocate] at h
      -- either this piece has the token, or one further behind, and then one less is counted
      cases i with
      | zero =>
        cases h
        exact ⟨[], p, ps, k, rfl, hp, rfl, hk', rfl⟩
      | succ i =>
        obtain ⟨front, p', behind, k, rfl, hk, hlength, htoken, hline⟩ := ih h
        refine ⟨p :: front, p', behind, k, rfl, hk, ?_, htoken, hline.trans lineBehind_cons.symm⟩
        rw [written, List.filterMap_cons_some hp]
        exact congrArg (· + 1) hlength

end Locate

/-- Every token is on the line that its place in the text says. -/
theorem exists_tokenAt {text : String} {ts : List Located} (h : tokens text = .ok ts) {i : Nat}
    {t : Located} (ht : ts[i]? = some t) :
    ∃ before k, TokenAt text.toList i before k ∧ (k ≠ .anonymous → t.token = k) ∧
      t.line = 1 + before.count '\n' := by
  obtain ⟨-, rfl⟩ := scan_eq_ok_iff.1 h
  obtain ⟨front, p, behind, k, hcut, hk, hlength, htoken, hline⟩ :=
    exists_piece_of_getElem?_locate ht
  exact ⟨_, k, ⟨front, p, behind, hcut, hk, hlength, rfl⟩, htoken, hline⟩

/-- A fault is on the line where the lexeme starts that has it. -/
theorem exists_faultAt {text : String} {e : SyntaxError} (h : tokens text = .error e) :
    ∃ before c rest, text.toList = before ++ c :: rest ∧
      (cut text.toList).1.flatMap Piece.spelling = before ∧
      lexeme c rest = .error e.fault ∧ e.line = 1 + before.count '\n' := by
  rw [tokens, scan_eq] at h
  split at h
  · cases h
  · rename_i fault hfault
    cases h
    obtain ⟨c, rest, htext, hlexeme⟩ := exists_place_of_fault hfault
    exact ⟨_, c, rest, htext, rfl, hlexeme, rfl⟩

/-! ## Rules -/

/-- The tokens of the rules in front and of this one stand next to each other, and behind this text
stands the first one of them. -/
def RuleAt (text : String) (front : List Rule) (r : Rule) (before : List Char) : Prop :=
  ∃ ts us part behind k, tokens text = .ok ts ∧ ts = us ++ part ++ behind ∧
    us.map Located.token = front.flatMap Rule.tokens ∧ part.map Located.token = r.tokens ∧
    TokenAt text.toList us.length before k

theorem Grammar.exists_part {last : Nat} {ts : List Located} {front behind : List Rule} {r : Rule}
    (h : (statements last ts).1 = front ++ r :: behind) :
    ∃ us part vs, ts = us ++ part ++ vs ∧ us.map Located.token = front.flatMap Rule.tokens ∧
      r.SpelledBy part := by
  induction front generalizing ts with
  | nil =>
    obtain ⟨rest, hstatement, -⟩ := statements_eq_cons_iff.1 (Prod.ext h rfl)
    obtain ⟨-, part, rfl, hpart⟩ := statement_eq_ok_iff.1 hstatement
    exact ⟨[], part, rest, rfl, rfl, hpart⟩
  | cons s front ih =>
    obtain ⟨rest, hstatement, hrest⟩ := statements_eq_cons_iff.1 (Prod.ext h rfl)
    obtain ⟨-, part, rfl, hpart, -⟩ := statement_eq_ok_iff.1 hstatement
    obtain ⟨us, part', vs, rfl, hus, hpart'⟩ := ih (congrArg Prod.fst hrest)
    refine ⟨part ++ us, part', vs, by simp only [List.append_assoc], ?_, hpart'⟩
    rw [List.map_append, hpart, hus, List.flatMap_cons]

/-- Rules are on the lines where they start, also in front of a syntax error. -/
theorem exists_ruleAt {text : String} {ts : List Located} (hts : tokens text = .ok ts) {last : Nat}
    {front behind : List Rule} {r : Rule}
    (h : (Grammar.statements last ts).1 = front ++ r :: behind) :
    ∃ before, RuleAt text front r before ∧ r.line = 1 + before.count '\n' := by
  obtain ⟨us, part, vs, rfl, hus, hpart, hline⟩ := Grammar.exists_part h
  rcases part with _ | ⟨t, part⟩
  · cases hline
  have ht : (us ++ t :: part ++ vs)[us.length]? = some t := by simp
  obtain ⟨before, k, hat, -, hbefore⟩ := exists_tokenAt hts ht
  refine ⟨before, ⟨_, us, t :: part, vs, k, hts, rfl, hus, hpart, hat⟩, ?_⟩
  rw [← hbefore]
  exact (Option.some.inj hline).symm

theorem exists_of_firstUnsafe {rules : List Rule} {e : RuleError} (h : firstUnsafe rules = some e) :
    ∃ front r behind name, rules = front ++ r :: behind ∧ (∀ s ∈ front, s.unsafeVar? = none) ∧
      r.unsafeVar? = some name ∧ e = .unsafeRule r.line name := by
  obtain ⟨front, r, behind, rfl, hr, hfront⟩ := List.findSome?_eq_some_iff.1 h
  obtain ⟨name, hname, rfl⟩ := Option.map_eq_some_iff.1 hr
  exact ⟨front, r, behind, name, rfl, fun s hs ↦ Option.map_eq_none_iff.1 (hfront s hs), hname, rfl⟩

/-- The rule that is not safe is the first such rule of the text, and its line is reported. -/
theorem exists_unsafeAt {text : String} {line : Nat} {name : String}
    (h : parseProgram text = .error (.unsafeRule line name)) :
    ∃ front r before, RuleAt text front r before ∧ (∀ s ∈ front, s.unsafeVar? = none) ∧
      r.unsafeVar? = some name ∧ line = 1 + before.count '\n' := by
  rw [parseProgram_eq] at h
  cases hts : tokens text with
  | error e =>
    rw [hts] at h
    cases h
  | ok ts =>
    rw [hts] at h
    dsimp only at h
    rw [verdict] at h
    split at h
    · rename_i e hfirst
      cases h
      obtain ⟨front, r, behind, name', hrules, hfront, hname, heq⟩ := exists_of_firstUnsafe hfirst
      obtain ⟨hline, rfl⟩ := RuleError.unsafeRule.inj heq
      obtain ⟨before, hat, hbefore⟩ := exists_ruleAt hts hrules
      exact ⟨front, r, before, hat, hfront, hname, hline.trans hbefore⟩
    · split at h <;> cases h

/-- **Lines are those of the source.**  For every text:

* a lexer that takes one character after the other and counts line ends on the way gives the same
  tokens and faults on the same lines;
* the line of a token is one more than there are line ends in front of its first character;
* the line of a fault is one more than there are in front of the lexeme, comment or directive that
  has it;
* a rule that is read, and the first one that is not safe, has the line on which it starts. -/
theorem source_lines_exact (text : String) :
    (Cursor.mk text.toList 1).read 0 = tokens text ∧
    (∀ ts, tokens text = .ok ts → ∀ i t, ts[i]? = some t →
      ∃ before k, TokenAt text.toList i before k ∧ (k ≠ .anonymous → t.token = k) ∧
        (∃ c rest l, text.toList = before ++ c :: rest ∧ lexeme c rest = .ok l ∧
          l.token? = some k) ∧
        t.line = 1 + before.count '\n') ∧
    (∀ e, tokens text = .error e → ∃ before c rest, text.toList = before ++ c :: rest ∧
      (cut text.toList).1.flatMap Piece.spelling = before ∧ lexeme c rest = .error e.fault ∧
      e.line = 1 + before.count '\n') ∧
    (∀ rules, parseProgram text = .ok rules → ∀ front r behind, rules = front ++ r :: behind →
      ∃ before, RuleAt text front r before ∧ r.line = 1 + before.count '\n') ∧
    ∀ line name, parseProgram text = .error (.unsafeRule line name) →
      ∃ front r before, RuleAt text front r before ∧ (∀ s ∈ front, s.unsafeVar? = none) ∧
        r.unsafeVar? = some name ∧ line = 1 + before.count '\n' := by
  refine ⟨Cursor.read_eq 0 _, fun ts hts i t ht ↦ ?_, fun e ↦ exists_faultAt, ?_,
    fun line name ↦ exists_unsafeAt⟩
  · obtain ⟨before, k, hat, htoken, hline⟩ := exists_tokenAt hts ht
    exact ⟨before, k, hat, htoken, hat.exists_lexeme, hline⟩
  · intro rules hrules front r behind hsplit
    obtain ⟨ts, hts, hspelling, -⟩ := parseProgram_eq_ok_iff.1 hrules
    have hread : Grammar.statements 0 ts = (rules, none) := Grammar.statements_eq_iff.2 hspelling
    exact exists_ruleAt hts ((congrArg Prod.fst hread).trans hsplit)

/-- A rule that is not safe, behind a comment, a string and a directive over two lines each. -/
def spread : String :=
  "%* a\n*% %\nsay(\"x\ny\").\n#show\n say/1.\n\nq :- say(X), not r(Y).\n"

theorem source_lines_exact_spread :
    parseProgram spread = .error (.unsafeRule 8 "Y") ∧
      ∃ front r before, RuleAt spread front r before ∧ r.unsafeVar? = some "Y" ∧
        8 = 1 + before.count '\n' := by
  have hparse : parseProgram spread = .error (.unsafeRule 8 "Y") := by decide +kernel
  obtain ⟨front, r, before, hat, -, hname, hline⟩ := (source_lines_exact spread).2.2.2.2 _ _ hparse
  exact ⟨hparse, front, r, before, hat, hname, hline⟩

end RightOfWay
