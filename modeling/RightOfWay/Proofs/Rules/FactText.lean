import RightOfWay.Proofs.Rules.AtomText

/-!
# Facts written and read

Facts go to the oracle as text, one on a line, and this file shows that they come back as they were.

* An atom is *inline* (`Atom.Inline`) if it is legible and takes one line.  That is so for *plain*
  atoms (`Atom.Plain`), whose predicates and symbols are words.
* `Spells cs ts rest` says that a piece of text in front of `rest` makes the given tokens, all of
  them on the line where it stands.  `Atom.Inline.spells` gives the tokens of an inline atom
  written as a fact.
* `Atom.Legible.statement_tokens` reads these tokens as the fact.
-/

set_option autoImplicit false

namespace RightOfWay

/-! ## Atoms on a line -/

/-- A term that is a number or a word. -/
def Term.Plain : Term → Prop
  | .int _ => True
  | .symbol text => IsConstant text

/-- An atom whose predicate and symbols are words. -/
structure Atom.Plain (a : Atom) : Prop where
  predicate : IsConstant a.predicate
  args : ∀ t ∈ a.args, t.Plain

/-- A legible atom without line ends in its strings. -/
structure Atom.Inline (a : Atom) : Prop extends a.Legible where
  strings : ∀ text, .symbol text ∈ a.args → '\n' ∉ text.toList

theorem IsConstant.lineEnd_notMem {text : String} (h : IsConstant text) : '\n' ∉ text.toList :=
  fun hmem ↦ absurd (h.word _ hmem) (by decide)

theorem Atom.Plain.inline {a : Atom} (h : a.Plain) : a.Inline where
  predicate := h.predicate
  args t ht := by
    have hplain := h.args t ht
    cases t with
    | int value => trivial
    | symbol text => exact .inl hplain
  strings text ht := IsConstant.lineEnd_notMem (h.args (.symbol text) ht)

theorem lineEnd_notMem_toDigits (n : Nat) : '\n' ∉ Nat.toDigits 10 n :=
  fun hmem ↦ absurd (isDigit_of_mem_toDigits hmem) (by decide)

theorem Term.lineEnd_notMem {t : Term} (h : ∀ text, t = .symbol text → '\n' ∉ text.toList) :
    '\n' ∉ t.render.toList := by
  cases t with
  | int value =>
    rw [render, Int.toString_eq_repr, Int.repr_eq_if]
    split
    · rw [Nat.toList_repr]
      exact lineEnd_notMem_toDigits _
    · rw [String.toList_append, Nat.toList_repr, List.mem_append, not_or]
      exact ⟨by decide, lineEnd_notMem_toDigits _⟩
  | symbol text => exact h text rfl

theorem lineEnd_notMem_args {ts : List Term} (hts : ∀ t ∈ ts, '\n' ∉ t.render.toList) :
    '\n' ∉ (", ".intercalate (ts.map Term.render)).toList := by
  induction ts with
  | nil => decide
  | cons t ts ih =>
    obtain ⟨ht, hts⟩ := List.forall_mem_cons.1 hts
    cases ts with
    | nil =>
      rw [List.map_singleton, String.intercalate_singleton]
      exact ht
    | cons u us =>
      rw [List.map_cons, List.map_cons, String.intercalate_cons_cons, ← List.map_cons,
        String.toList_append, String.toList_append, List.mem_append, List.mem_append]
      rintro ((hmem | hmem) | hmem)
      · exact ht hmem
      · exact absurd hmem (by decide)
      · exact ih hts hmem

namespace Atom.Inline

variable {a : Atom}

/-- An inline atom written as a fact takes one line. -/
theorem lineEnd_notMem (h : a.Inline) : '\n' ∉ a.factLine.toList := by
  have hargs : ∀ t ∈ a.args, '\n' ∉ t.render.toList :=
    fun t ht ↦ Term.lineEnd_notMem fun text htext ↦ h.strings text (htext ▸ ht)
  have hrender : '\n' ∉ a.render.toList := by
    rw [render]
    split
    · exact h.predicate.lineEnd_notMem
    · simp only [String.toList_append, List.mem_append]
      rintro (((hmem | hmem) | hmem) | hmem)
      · exact h.predicate.lineEnd_notMem hmem
      · exact absurd hmem (by decide)
      · exact lineEnd_notMem_args hargs hmem
      · exact absurd hmem (by decide)
  rw [factLine, String.toList_append, List.mem_append, not_or]
  exact ⟨hrender, by decide⟩

end Atom.Inline

/-! ## Facts -/

/-- The tokens of an atom that is written as a fact. -/
def Atom.tokens (a : Atom) : List Token :=
  if a.args.isEmpty then [.symbol a.predicate, .period]
  else .symbol a.predicate :: .openParen :: argTokens a.args ++ [.period]

/-- The fact is spelled as the atom is. -/
theorem Rule.tokens_ofAtom (a : Atom) (line : Nat) : (Rule.ofAtom a line).tokens = a.tokens := by
  obtain ⟨predicate, ts⟩ := a
  by_cases hargs : ts = []
  · subst hargs
    rfl
  · simp [Rule.tokens, Pattern.tokens, Rule.ofAtom, Atom.tokens, hargs,
      ← listTokens_map_const hargs]

/-- In front of the rest, the piece of text makes these tokens, all on the line where it stands. -/
def Spells (cs : List Char) (ts : List Token) (rest : List Char) : Prop :=
  ∀ line seen, scan line seen (cs ++ rest) =
    (scan line seen rest).map (ts.map (⟨·, line⟩) ++ ·)

/-- What a text without line ends makes stands on its line. -/
theorem Makes.spells {cs rest : List Char} {ks : List Token} (h : Makes cs ks rest)
    (hline : '\n' ∉ cs) : Spells cs ks rest := by
  intro line seen
  obtain ⟨ts, rfl, hts, hscan⟩ := h line seen
  rw [List.count_eq_zero_of_not_mem hline, Nat.add_zero] at hts hscan
  have hlocated : ts.map (fun t ↦ Located.mk t.token line) = ts := by
    refine (List.map_congr_left fun t ht ↦ ?_).trans ts.map_id
    obtain rfl : line = t.line := Nat.le_antisymm (hts t ht).1 (hts t ht).2
    rfl
  rw [hscan, List.map_map]
  exact congrArg (fun us ↦ Except.map (us ++ ·) _) hlocated.symm

/-- **An inline atom written as a fact makes its tokens** and nothing else. -/
theorem Atom.Inline.spells {a : Atom} (h : a.Inline) (rest : List Char) :
    Spells a.factLine.toList a.tokens rest := by
  have htokens : a.tokens = a.pattern.tokens ++ [.period] :=
    (Rule.tokens_ofAtom a 0).symm.trans (by simp [Rule.tokens, Rule.ofAtom, Atom.pattern])
  refine Makes.spells ?_ h.lineEnd_notMem
  rw [factLine, String.toList_append, htokens]
  exact (h.makes (delimits_cons (by decide) rest)).append (Makes.period rest)

/-! ## Whole sections -/

/-- The tokens of atoms that are written as facts, the first one on the given line. -/
def factTokens (line : Nat) : List Atom → List Located
  | [] => []
  | a :: as => a.tokens.map (⟨·, line⟩) ++ factTokens (line + 1) as

/-- Behind a section of facts, a text is read as it would be on the line that it is on. -/
theorem scan_renderFacts {as : List Atom} (h : ∀ a ∈ as, a.Inline) (line seen : Nat)
    (rest : List Char) :
    scan line seen ((renderFacts as).toList ++ rest) =
      (scan (line + as.length) seen rest).map (factTokens line as ++ ·) := by
  induction as generalizing line with
  | nil =>
    show scan line seen rest = (scan line seen rest).map _
    cases scan line seen rest <;> rfl
  | cons a as ih =>
    obtain ⟨ha, has⟩ := List.forall_mem_cons.1 h
    have htext : (renderFacts (a :: as)).toList ++ rest =
        a.factLine.toList ++ ('\n' :: ((renderFacts as).toList ++ rest)) := by
      simp [renderFacts, String.toList_join]
    have hend : scan line seen ('\n' :: ((renderFacts as).toList ++ rest)) =
        scan (line + 1) seen ((renderFacts as).toList ++ rest) :=
      scan_of_skipped (l := ⟨none, ['\n'], _⟩) rfl rfl
    rw [htext, ha.spells, hend, ih has, List.length_cons, Nat.add_comm as.length 1, ← Nat.add_assoc]
    rcases scan (line + 1 + as.length) seen rest with e | ts
    · rfl
    · simp [Except.map, factTokens]

/-! ## Reading the tokens -/

theorem Atom.Legible.named {a : Atom} (h : a.Legible) : a.pattern.Named :=
  fun hquote ↦ absurd (h.predicate.first '"' hquote) (by decide)

theorem Atom.Legible.writable {a : Atom} (h : a.Legible) (line : Nat) :
    (Rule.ofAtom a line).Writable := by
  refine ⟨.inl rfl, ?_, nofun⟩
  rintro p ⟨⟩
  exact h.named

/-- **The tokens of a legible atom are read as the fact.** -/
theorem Atom.Legible.statement_tokens {a : Atom} (h : a.Legible) (last line : Nat)
    (rest : List Located) :
    Grammar.statement last (a.tokens.map (⟨·, line⟩) ++ rest) = .ok (.ofAtom a line, rest) := by
  have hspelled := (Rule.ofAtom a line).spelledBy_located
  rw [Rule.located, Rule.tokens_ofAtom] at hspelled
  exact Grammar.statement_eq_ok_iff.2 ⟨h.writable line, _, rfl, hspelled⟩

/-- Facts in front of other rules are read one by one. -/
theorem statements_factTokens {as : List Atom} (h : ∀ a ∈ as, a.Legible) (last line : Nat)
    (rest : List Located) :
    Grammar.statements last (factTokens line as ++ rest) =
      ((as.mapIdx fun k a ↦ Rule.ofAtom a (line + k)) ++ (Grammar.statements last rest).1,
        (Grammar.statements last rest).2) := by
  induction as generalizing line with
  | nil => rfl
  | cons a as ih =>
    obtain ⟨ha, has⟩ := List.forall_mem_cons.1 h
    have hstatement := ha.statement_tokens last line (factTokens (line + 1) as ++ rest)
    rw [factTokens, List.append_assoc, Grammar.statements_of_ok hstatement, ih has]
    simp [List.mapIdx_cons, Nat.add_assoc, Nat.add_comm 1]

end RightOfWay
