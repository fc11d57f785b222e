import RightOfWay.Proofs.Rules.Sections

/-!
# Which atoms come back from their text

An atom of any predicate and any symbols can be written, but only some of them are read back.

* A text is read as an atom exactly if its tokens are those of the atom (`parseAtom_eq_ok_iff`).
* The lexer makes no symbols but legible ones, so every atom that is read is legible
  (`legible_of_parseAtom`).  The text of a legible atom makes the tokens of the atom.

So the atoms that come back are the legible ones, and facts with strings come back as plain ones do
(`parseAtom_exact`).
-/

set_option autoImplicit false

namespace RightOfWay

/-! ## Reading -/

theorem groundTerms_eq_ok_iff {as : List Arg} {ts : List Term} :
    groundTerms as = .ok ts ↔ as = ts.map .const := by
  induction as generalizing ts with
  | nil => cases ts <;> simp [groundTerms]
  | cons a as ih =>
    cases a with
    | var name => cases ts <;> simp [groundTerms]
    | const t =>
      rw [groundTerms]
      cases ts with
      | nil => cases groundTerms as <;> simp [Except.map]
      | cons u us =>
        rw [List.map_cons, List.cons.injEq, ← ih]
        cases groundTerms as <;> simp [Except.map]

/-- The pattern that is the atom. -/
theorem Atom.pattern_of_groundTerms {p : Pattern} {terms : List Term}
    (h : groundTerms p.args = .ok terms) : Atom.pattern ⟨p.predicate, terms⟩ = p := by
  rw [Atom.pattern, ← groundTerms_eq_ok_iff.1 h]

/-- **A text is read as an atom if its tokens are those of the atom**, and only then. -/
theorem parseAtom_eq_ok_iff {text : String} {a : Atom} : parseAtom text = .ok a ↔
    a.pattern.Named ∧ ∃ ts, tokens text = .ok ts ∧ ts.map Located.token = a.pattern.tokens := by
  rw [parseAtom]
  cases tokens text with
  | error e => simp
  | ok ts =>
    simp only [Except.ok.injEq, exists_eq_left']
    have hbegins : Grammar.Begins ts a.pattern.tokens [] ↔
        ts.map Located.token = a.pattern.tokens := by
      simp [Grammar.Begins]
    rw [← hbegins]
    constructor
    · intro h
      cases hread : Grammar.pattern (Grammar.lastLine ts) ts with
      | error e =>
        rw [hread] at h
        cases h
      | ok read =>
        -- nothing may be left over behind the atom
        obtain ⟨p, _ | ⟨t, rest⟩⟩ := read
        · rw [hread] at h
          dsimp only at h
          cases hground : groundTerms p.args with
          | error name =>
            rw [hground] at h
            cases h
          | ok terms =>
            rw [hground] at h
            cases h
            obtain ⟨hnamed, hts, -⟩ := Grammar.pattern_sound hread
            rw [Atom.pattern_of_groundTerms hground]
            exact ⟨hnamed, hts⟩
        · rw [hread] at h
          cases h
    · rintro ⟨hnamed, hts⟩
      have hground : groundTerms a.pattern.args = .ok a.args := groundTerms_eq_ok_iff.2 rfl
      rw [Grammar.pattern_of_begins hnamed hts fun _ ↦ by simp [Grammar.Unbracketed]]
      dsimp only
      rw [hground]
      rfl

/-! ## What is read -/

theorem Arg.token_mem_listTokens {a : Arg} {as : List Arg} (h : a ∈ as) :
    a.token ∈ listTokens as := by
  induction as with
  | nil => cases h
  | cons b as ih =>
    by_cases has : as = []
    · subst has
      rw [List.mem_singleton.1 h, listTokens_singleton]
      exact List.mem_singleton_self _
    · rw [listTokens_cons has, List.mem_cons, List.mem_cons]
      rcases List.mem_cons.1 h with rfl | h
      · exact .inl rfl
      · exact .inr (.inr (ih h))

/-- Every atom that is read from a text is legible. -/
theorem legible_of_parseAtom {text : String} {a : Atom} (h : parseAtom text = .ok a) :
    a.Legible := by
  obtain ⟨hnamed, ts, hts, htokens⟩ := parseAtom_eq_ok_iff.1 h
  have hsymbol : ∀ symbol, .symbol symbol ∈ a.pattern.tokens → (Term.symbol symbol).Legible :=
    fun symbol hmem ↦ legible_of_mem_scan hts (htokens ▸ hmem)
  refine ⟨?_, fun t ht ↦ ?_⟩
  · rcases hsymbol a.predicate List.mem_cons_self with hword | ⟨inner, -, hquoted⟩
    · exact hword
    · exact absurd (show a.predicate.toList.head? = some '"' by rw [hquoted]; rfl) hnamed
  · cases t with
    | int value => trivial
    | symbol symbol =>
      have hmem : .const (.symbol symbol) ∈ a.pattern.args := List.mem_map_of_mem ht
      refine hsymbol symbol (List.mem_cons_of_mem _ ?_)
      rw [if_neg (List.ne_nil_of_mem hmem), List.cons_append]
      exact List.mem_cons_of_mem _
        (List.mem_append_left _ (Arg.token_mem_listTokens hmem))

theorem parseAtom_render {a : Atom} (h : a.Legible) : parseAtom a.render = .ok a :=
  parseAtom_eq_ok_iff.2 ⟨h.named, (h.makes delimits_nil).exists_tokens⟩

/-- **Exactly the legible atoms come back from their text.**  An atom is read from its own text if
and only if its predicate is a word that starts with a small letter and is not the word `not`, and
each of its terms is a number, such a word, or a string whose quotes and backslashes stand behind
backslashes.  Every atom that is read from any text is of this kind.  And a list of such atoms
without line ends in their strings, written as facts, is read as rules without a body: one for each
atom, in order, with the atom as its head and with its place in the list as its line. -/
theorem parseAtom_exact :
    (∀ a : Atom, parseAtom a.render = .ok a ↔ a.Legible) ∧
    (∀ (text : String) (a : Atom), parseAtom text = .ok a → a.Legible) ∧
    ∀ as : List Atom, (∀ a ∈ as, a.Inline) →
      parseProgram (renderFacts as) = .ok (as.mapIdx fun k a ↦ ⟨some a.pattern, [], k + 1⟩) := by
  refine ⟨fun a ↦ ⟨legible_of_parseAtom, parseAtom_render⟩, fun _ _ ↦ legible_of_parseAtom,
    fun as has ↦ ?_⟩
  have hempty : parseProgram "" = .ok [] :=
    parseProgram_eq_ok_iff.2 ⟨[], scan_nil 1 0, Grammar.spelling_nil.2 rfl, nofun⟩
  have hread := parseProgram_facts has ""
  rw [hempty, Program.closed_eq_self (.inl rfl), String.append_empty] at hread
  rw [hread, behindFacts, List.map_nil, List.append_nil]
  rfl

/-- An atom with a quotation in a string and with the least number, and one without terms. -/
def remarks : List Atom :=
  [⟨"says'", [.symbol "v_car7", .symbol "\"\\\"left\\\" it said\"", .int Int64.minValue]⟩,
    ⟨"ready", []⟩]

theorem inline_remarks : ∀ a ∈ remarks, a.Inline := by
  have hlegible : ∀ a ∈ remarks, a.Legible := by decide
  have hstrings : ∀ a ∈ remarks, ∀ t ∈ a.args, '\n' ∉ t.render.toList := by decide
  exact fun a ha ↦ ⟨hlegible a ha, fun text htext ↦ hstrings a ha (.symbol text) htext⟩

theorem parseAtom_exact_remarks :
    (∀ a ∈ remarks, a.Inline ∧ parseAtom a.render = .ok a) ∧
      parseProgram (renderFacts remarks) =
        .ok (remarks.mapIdx fun k a ↦ ⟨some a.pattern, [], k + 1⟩) := by
  obtain ⟨hrender, hread, hfacts⟩ := parseAtom_exact
  refine ⟨fun a ha ↦ ⟨inline_remarks a ha, (hrender a).2 (inline_remarks a ha).toLegible⟩,
    hfacts remarks inline_remarks⟩

end RightOfWay
