import RightOfWay.Oracle.Program
import RightOfWay.Proofs.Rules.FactText

/-!
# Facts in front of rules

The program of a solve is made of two sections of facts and of the rules.  The facts can neither
break the rules nor be broken by them: reading the program gives one fact for each atom and then
what reading the rules on their own gives, further down by as many lines as there are facts
(`parseProgram_assemble`).  That holds for every rule text, with and without errors.
-/

set_option autoImplicit false

namespace RightOfWay

/-- The facts that state atoms, one on a line from the first line on. -/
def factRules (as : List Atom) : List Rule := as.mapIdx fun k a ↦ Rule.ofAtom a (k + 1)

/-- What reading rules behind facts on `n` lines gives. -/
def behindFacts (as : List Atom) : Except RuleError (List Rule) → Except RuleError (List Rule)
  | .ok rs => .ok (factRules as ++ rs.map (Rule.shift as.length))
  | .error e => .error (e.shift as.length)

/-! ## Sections -/

theorem renderFacts_append (as bs : List Atom) :
    renderFacts (as ++ bs) = renderFacts as ++ renderFacts bs := by
  rw [renderFacts, List.map_append, String.join_append]
  rfl

/-- Facts need no line end behind them. -/
theorem closed_renderFacts (as : List Atom) : Program.closed (renderFacts as) = renderFacts as := by
  refine Program.closed_eq_self ?_
  rcases List.eq_nil_or_concat as with rfl | ⟨bs, b, rfl⟩
  · exact .inl rfl
  · refine .inr ?_
    rw [List.concat_eq_append, renderFacts_append]
    simp [renderFacts]

theorem scan_closed (line seen : Nat) (text : String) :
    scan line seen (Program.closed text).toList = scan line seen text.toList := by
  rw [Program.closed]
  split
  · rfl
  · rw [String.toList_append]
    exact scan_lineEnd line seen text.toList

/-! ## Reading -/

@[simp] theorem Rule.unsafeVar?_shift (n : Nat) (r : Rule) :
    (r.shift n).unsafeVar? = r.unsafeVar? := rfl

theorem Rule.unsafeVar?_ofAtom (a : Atom) (line : Nat) : (ofAtom a line).unsafeVar? = none := by
  have hanonymous : (Pattern.mk a.predicate (a.args.map .const)).anonymousVar? = none := by
    rw [Pattern.anonymousVar?, List.findSome?_map, List.findSome?_eq_none_iff]
    exact fun _ _ ↦ rfl
  have hnamed : (Pattern.mk a.predicate (a.args.map .const)).namedVars = [] := by
    rw [Pattern.namedVars, List.filterMap_map, List.filterMap_eq_nil_iff]
    exact fun _ _ ↦ rfl
  simp only [unsafeVar?, ofAtom, Option.bind_some, hanonymous]
  simp [neededVars, hnamed]

theorem lastLine_append_shift (us : List Located) {ts : List Located} (hts : ts ≠ []) (n : Nat) :
    Grammar.lastLine (us ++ ts.map (Located.shift n)) = Grammar.lastLine ts + n := by
  rw [Grammar.lastLine, Grammar.lastLine, List.getLast?_append, List.getLast?_map,
    List.getLast?_eq_some_getLast hts]
  rfl

/-- The first rule that is not safe, as an error. -/
def firstUnsafe (rules : List Rule) : Option RuleError :=
  rules.findSome? fun r ↦ r.unsafeVar?.map fun name ↦ RuleError.unsafeRule r.line name

/-- What reading rules up to a fault, if there is any, amounts to. -/
def verdict (read : List Rule × Option SyntaxError) : Except RuleError (List Rule) :=
  match firstUnsafe read.1 with
  | some e => .error e
  | none =>
    match read.2 with
    | some e => .error (.unreadable e)
    | none => .ok read.1

theorem parseProgram_eq (text : String) :
    parseProgram text =
      match tokens text with
      | .error e => .error (.unreadable e)
      | .ok ts => verdict (Grammar.statements (Grammar.lastLine ts) ts) := by
  rw [parseProgram]
  rcases tokens text with e | ts <;> rfl

theorem firstUnsafe_eq_none_iff {rs : List Rule} :
    firstUnsafe rs = none ↔ ∀ r ∈ rs, r.unsafeVar? = none := by
  simp only [firstUnsafe, List.findSome?_eq_none_iff, Option.map_eq_none_iff]

/-- A text gives rules if it spells them and all of them are safe. -/
theorem parseProgram_eq_ok_iff {text : String} {rs : List Rule} : parseProgram text = .ok rs ↔
    ∃ ts, tokens text = .ok ts ∧ Spelling ts rs ∧ ∀ r ∈ rs, r.unsafeVar? = none := by
  rw [parseProgram_eq]
  cases tokens text with
  | error e => simp
  | ok ts =>
    obtain ⟨read, hread⟩ : ∃ read, Grammar.statements (Grammar.lastLine ts) ts = read := ⟨_, rfl⟩
    have hspelling : Spelling ts rs ↔ read = (rs, none) := by
      rw [← hread]
      exact Grammar.statements_eq_iff.symm
    obtain ⟨rules, fault⟩ := read
    simp only [hread, verdict, Except.ok.injEq, exists_eq_left', hspelling, Prod.mk.injEq,
      ← firstUnsafe_eq_none_iff]
    cases hfound : firstUnsafe rules with
    | some e =>
      refine iff_of_false nofun ?_
      rintro ⟨⟨rfl, -⟩, hsafe⟩
      rw [hfound] at hsafe
      cases hsafe
    | none =>
      cases fault with
      | some e => exact iff_of_false nofun nofun
      | none =>
        constructor
        · rintro h
          cases h
          exact ⟨⟨rfl, rfl⟩, hfound⟩
        · rintro ⟨⟨rfl, -⟩, -⟩
          rfl

theorem firstUnsafe_append (rs ss : List Rule) :
    firstUnsafe (rs ++ ss) = (firstUnsafe rs).or (firstUnsafe ss) := List.findSome?_append

theorem firstUnsafe_shift (n : Nat) (rs : List Rule) :
    firstUnsafe (rs.map (Rule.shift n)) = (firstUnsafe rs).map (RuleError.shift n) := by
  induction rs with
  | nil => rfl
  | cons r rs ih =>
    rw [List.map_cons, firstUnsafe, firstUnsafe, List.findSome?_cons, List.findSome?_cons,
      Rule.unsafeVar?_shift]
    cases r.unsafeVar? with
    | none => exact ih
    | some name => rfl

theorem firstUnsafe_factRules (as : List Atom) (rs : List Rule) (n : Nat) :
    firstUnsafe (factRules as ++ rs.map (Rule.shift n)) =
      (firstUnsafe rs).map (RuleError.shift n) := by
  have hfacts : firstUnsafe (factRules as) = none := by
    refine List.findSome?_eq_none_iff.2 fun r hr ↦ ?_
    obtain ⟨k, hk, rfl⟩ := List.mem_mapIdx.1 hr
    rw [Rule.unsafeVar?_ofAtom]
    rfl
  rw [firstUnsafe_append, hfacts, Option.none_or, firstUnsafe_shift]

theorem verdict_behindFacts (as : List Atom) (read : List Rule × Option SyntaxError) :
    verdict (factRules as ++ read.1.map (Rule.shift as.length),
      read.2.map (SyntaxError.shift as.length)) = behindFacts as (verdict read) := by
  obtain ⟨rules, fault⟩ := read
  rw [verdict, verdict, firstUnsafe_factRules]
  rcases firstUnsafe rules with _ | e
  · rcases fault with _ | e <;> rfl
  · rfl

theorem parseProgram_facts {as : List Atom} (h : ∀ a ∈ as, a.Inline) (rules : String) :
    parseProgram (renderFacts as ++ Program.closed rules) =
      behindFacts as (parseProgram rules) := by
  have hscan : tokens (renderFacts as ++ Program.closed rules) =
      (shiftScan as.length (tokens rules)).map (factTokens 1 as ++ ·) := by
    rw [tokens, String.toList_append, scan_renderFacts h, scan_closed, scan_shift]
    rfl
  rw [parseProgram_eq, parseProgram_eq, hscan]
  rcases tokens rules with e | ts
  · rfl
  dsimp only [shiftScan, Except.map]
  rw [← verdict_behindFacts, statements_factTokens fun a ha ↦ (h a ha).toLegible]
  have hfacts : (as.mapIdx fun k a ↦ Rule.ofAtom a (1 + k)) = factRules as := by
    simp only [factRules, Nat.add_comm 1]
  rw [hfacts]
  rcases ts with _ | ⟨t, ts⟩
  · -- without tokens the last line does not matter
    rw [List.map_nil, Grammar.statements_nil, Grammar.statements_nil]
    rfl
  · rw [lastLine_append_shift _ (List.cons_ne_nil t ts), Grammar.statements_shift]

/-- **Facts neither break rules nor are broken by them.** -/
theorem parseProgram_assemble {es gs : List Atom} (hes : ∀ a ∈ es, a.Plain)
    (hgs : ∀ a ∈ gs, a.Plain) (rules : String) :
    parseProgram (Program.assemble (renderFacts es) (renderFacts gs) rules).text =
      behindFacts (es ++ gs) (parseProgram rules) := by
  rw [Program.assemble, closed_renderFacts, closed_renderFacts, ← renderFacts_append]
  exact parseProgram_facts
    (fun a ha ↦ ((List.mem_append.1 ha).elim (hes a) (hgs a)).inline) rules

end RightOfWay
