import RightOfWay.Proofs.Rules.LineEnd
import RightOfWay.Proofs.Rules.Spelling

/-!
# Atoms as text

An atom is written as its predicate and its terms, just as they are.  Not every atom is read back
from this text, because a symbol may spell anything.

* `Makes cs ks rest` says that a text in front of `rest` makes the given tokens and leaves the rest
  alone, whichever lines it takes.
* A symbol is *legible* if it is a word that starts with a small letter and is not the word `not`
  (`IsConstant`), or a quotation: a text between quotes in which a backslash takes the character
  behind it along (`IsQuotation`).  Numbers are always legible: the decimal text of every number of
  sixty-four bits, its sign included, reads as that number (`int64?_toDigits`).
* `Atom.Legible.makes` gives the tokens of a legible atom, and `legible_of_mem_scan` shows that the
  lexer makes no symbols but legible ones.
-/

set_option autoImplicit false

namespace RightOfWay

/-! ## Characters -/

theorem toNat_of_isLower {c : Char} (h : c.isLower = true) : 97 ≤ c.toNat ∧ c.toNat ≤ 122 := by
  have hval : (decide (c.val ≥ 97) && decide (c.val ≤ 122)) = true := h
  simpa [UInt32.le_iff_toNat_le] using hval

theorem toNat_of_isDigit {c : Char} (h : c.isDigit = true) : 48 ≤ c.toNat ∧ c.toNat ≤ 57 :=
  Char.isDigit_iff_toNat.1 h

theorem isBlank_eq_false {c : Char} (low : 0x20 < c.toNat) (high : c.toNat < 0x7F) :
    Text.isBlank c = false := by
  simp only [Text.isBlank, Bool.or_eq_false_iff, Bool.and_eq_false_iff, decide_eq_false_iff_not,
    beq_eq_false_iff_ne]
  omega

theorem lexeme_of_isLower {c : Char} (h : c.isLower = true) (cs : List Char) :
    lexeme c cs =
      .ok (Lexeme.word c cs fun name ↦ if name = "not" then .negation else .symbol name) := by
  obtain ⟨low, high⟩ := toNat_of_isLower h
  have hblank := isBlank_eq_false (c := c) (by omega) (by omega)
  have hquote : c ≠ '"' := by
    rintro rfl
    exact absurd low (by decide)
  have hminus : ¬ (c = '-' ∨ c.isDigit) := by
    rintro (rfl | hdigit)
    · exact absurd low (by decide)
    · have := toNat_of_isDigit hdigit
      omega
  rw [lexeme, if_neg (by simp [hblank]), if_neg hquote, if_neg hminus, if_pos h]

theorem lexeme_of_integer {c : Char} (h : c = '-' ∨ c.isDigit = true) (cs : List Char) :
    lexeme c cs = Lexeme.integer c cs := by
  have hrange : 45 ≤ c.toNat ∧ c.toNat ≤ 57 := by
    rcases h with rfl | hdigit
    · decide
    · have := toNat_of_isDigit hdigit
      omega
  have hblank := isBlank_eq_false (c := c) (by omega) (by omega)
  have hquote : c ≠ '"' := by
    rintro rfl
    exact absurd hrange.1 (by decide)
  rw [lexeme, if_neg (by simp [hblank]), if_neg hquote, if_pos h]

/-- The text ends a word and a number: it does not go on with a character of a word. -/
def Delimits (rest : List Char) : Prop := ∀ c ∈ rest.head?, isWordChar c = false

theorem delimits_nil : Delimits [] := by
  intro c hc
  cases hc

theorem delimits_cons {c : Char} (h : isWordChar c = false) (rest : List Char) :
    Delimits (c :: rest) := by
  intro d hd
  cases hd
  exact h

theorem Delimits.takeWhile {rest : List Char} (h : Delimits rest) {p : Char → Bool}
    (hp : ∀ c, p c = true → isWordChar c = true) {w : List Char} (hw : ∀ c ∈ w, p c = true) :
    (w ++ rest).takeWhile p = w ∧ (w ++ rest).dropWhile p = rest := by
  have hstop : ∀ c ∈ rest.head?, ¬ p c = true := fun c hc hpc ↦ by
    have hfalse := h c hc
    rw [hp c hpc] at hfalse
    cases hfalse
  rw [List.takeWhile_append_of_pos hw, List.dropWhile_append_of_pos hw]
  rcases rest with _ | ⟨c, rest⟩
  · exact ⟨List.append_nil w, rfl⟩
  · have hc := hstop c rfl
    rw [List.takeWhile_cons_of_neg hc, List.dropWhile_cons_of_neg hc]
    exact ⟨List.append_nil w, rfl⟩

/-! ## Pieces of text -/

/-- In front of the rest, the piece of text makes these tokens, on lines that it takes, and leaves
the rest alone. -/
def Makes (cs : List Char) (ks : List Token) (rest : List Char) : Prop :=
  ∀ line seen, ∃ ts : List Located, ts.map Located.token = ks ∧
    (∀ t ∈ ts, line ≤ t.line ∧ t.line ≤ line + cs.count '\n') ∧
    scan line seen (cs ++ rest) = (scan (line + cs.count '\n') seen rest).map (ts ++ ·)

namespace Makes

theorem append {as bs rest : List Char} {ks ms : List Token} (ha : Makes as ks (bs ++ rest))
    (hb : Makes bs ms rest) : Makes (as ++ bs) (ks ++ ms) rest := by
  intro line seen
  obtain ⟨ts, rfl, hts, hscan⟩ := ha line seen
  obtain ⟨us, rfl, hus, hscan'⟩ := hb (line + as.count '\n') seen
  refine ⟨ts ++ us, List.map_append, fun t ht ↦ ?_, ?_⟩
  · rw [List.count_append]
    rcases List.mem_append.1 ht with ht | ht
    · have := hts t ht
      omega
    · have := hus t ht
      omega
  · rw [List.append_assoc, hscan, hscan', List.count_append, Nat.add_assoc]
    rcases scan (line + (as.count '\n' + bs.count '\n')) seen rest with e | vs
    · rfl
    · simp [Except.map]

/-- A lexeme that makes a token. -/
theorem of_lexeme {c : Char} {cs rest : List Char} {token : Token}
    (h : lexeme c (cs ++ rest) = .ok ⟨some token, c :: cs, rest⟩) (hnamed : token ≠ .var "_") :
    Makes (c :: cs) [token] rest := by
  intro line seen
  refine ⟨[⟨token, line⟩], rfl, fun t ht ↦ ?_, ?_⟩
  · rw [List.mem_singleton.1 ht]
    exact ⟨Nat.le_refl _, Nat.le_add_right _ _⟩
  · rw [List.cons_append, scan_of_token h rfl hnamed]
    rfl

theorem sign {c : Char} {token : Token} (rest : List Char)
    (h : lexeme c rest = .ok ⟨some token, [c], rest⟩) (hnamed : token ≠ .var "_") :
    Makes [c] [token] rest :=
  of_lexeme h hnamed

theorem openParen (rest : List Char) : Makes ['('] [.openParen] rest := sign rest rfl nofun

theorem closeParen (rest : List Char) : Makes [')'] [.closeParen] rest := sign rest rfl nofun

theorem period (rest : List Char) : Makes ['.'] [.period] rest := sign rest rfl nofun

theorem space (rest : List Char) : Makes [' '] [] rest := by
  intro line seen
  refine ⟨[], rfl, nofun, ?_⟩
  rw [List.singleton_append, scan_of_skipped (l := ⟨none, [' '], rest⟩) rfl rfl]
  show scan line seen rest = (scan line seen rest).map _
  cases scan line seen rest <;> rfl

/-- A comma and the space behind it. -/
theorem comma (rest : List Char) : Makes [',', ' '] [.comma] rest :=
  (sign (c := ',') (' ' :: rest) rfl nofun).append (space rest)

/-- A text with nothing behind it has the tokens that it makes. -/
theorem exists_tokens {text : String} {ks : List Token} (h : Makes text.toList ks []) :
    ∃ ts, tokens text = .ok ts ∧ ts.map Located.token = ks := by
  obtain ⟨ts, hks, -, hscan⟩ := h 1 0
  rw [List.append_nil, scan_nil] at hscan
  exact ⟨ts, hscan.trans (congrArg Except.ok (List.append_nil ts)), hks⟩

end Makes

/-! ## Words -/

/-- The text is a word that starts with a small letter, and not the word `not`. -/
structure IsConstant (text : String) : Prop where
  first : ∀ c ∈ text.toList.head?, c.isLower = true
  word : ∀ c ∈ text.toList, isWordChar c = true
  ne_empty : text.toList ≠ []
  ne_not : text ≠ "not"

instance (text : String) : Decidable (IsConstant text) :=
  decidable_of_iff
    (text.toList.head?.all Char.isLower = true ∧ text.toList.all isWordChar = true ∧
      text.toList ≠ [] ∧ text ≠ "not")
    ⟨fun ⟨hfirst, hword, hne, hnot⟩ ↦
        ⟨(Option.all_eq_true _ _).1 hfirst, List.all_eq_true.1 hword, hne, hnot⟩,
      fun h ↦ ⟨(Option.all_eq_true _ _).2 h.first, List.all_eq_true.2 h.word, h.ne_empty, h.ne_not⟩⟩

theorem IsConstant.makes {text : String} (h : IsConstant text) {rest : List Char}
    (hrest : Delimits rest) : Makes text.toList [.symbol text] rest := by
  obtain ⟨c, cs, hcs⟩ := List.exists_cons_of_ne_nil h.ne_empty
  have hlower : c.isLower = true := h.first c (by rw [hcs]; rfl)
  have hword : ∀ d ∈ cs, isWordChar d = true := fun d hd ↦
    h.word d (by rw [hcs]; exact List.mem_cons_of_mem c hd)
  obtain ⟨htake, hdrop⟩ := hrest.takeWhile (fun _ ↦ id) hword
  have htext : String.ofList (c :: cs) = text := by rw [← hcs, String.ofList_toList]
  rw [hcs]
  refine Makes.of_lexeme ?_ nofun
  rw [lexeme_of_isLower hlower, Lexeme.word, htake, hdrop, htext]
  rw [if_neg h.ne_not]

/-! ## Numbers -/

theorem value_toDigits (n : Nat) : Numeral.value (Nat.toDigits 10 n) = n :=
  Nat.ofDigitChars_ten_toDigits

theorem isDigit_of_mem_toDigits {n : Nat} {c : Char} (h : c ∈ Nat.toDigits 10 n) :
    c.isDigit = true :=
  Nat.isDigit_of_mem_toDigits (by decide) (by decide) h

/-- The digits of a number read as the number. -/
theorem int64?_toDigits {negative : Bool} {n : Nat} {value : Int64}
    (h : value.toInt = if negative then -(n : Int) else n) :
    int64? negative (Nat.toDigits 10 n) = some value := by
  have hdigits : Nat.toDigits 10 n ≠ [] ∧ (Nat.toDigits 10 n).all Char.isDigit = true :=
    ⟨Nat.toDigits_ne_nil, List.all_eq_true.2 fun _ ↦ isDigit_of_mem_toDigits⟩
  rw [int64?, if_pos hdigits]
  dsimp only
  rw [value_toDigits, ← h, toInt64?_toInt]

theorem isWordChar_of_isDigit {c : Char} (h : c.isDigit = true) : isWordChar c = true := by
  simp [isWordChar, Char.isAlphanum, h]

theorem makes_integer {c : Char} {ds rest : List Char} {value : Int64}
    (hfirst : c = '-' ∨ c.isDigit = true) (hds : ∀ d ∈ ds, d.isDigit = true)
    (hvalue : (if c = '-' then int64? true ds else int64? false (c :: ds)) = some value)
    (hrest : Delimits rest) : Makes (c :: ds) [.int value] rest := by
  obtain ⟨htake, hdrop⟩ := hrest.takeWhile (fun _ ↦ isWordChar_of_isDigit) hds
  refine Makes.of_lexeme ?_ nofun
  rw [lexeme_of_integer hfirst, Lexeme.integer]
  simp only [htake, hdrop, hvalue]

/-- **The decimal text of a number reads as the number**, the least and the greatest included. -/
theorem makes_int (value : Int64) {rest : List Char} (hrest : Delimits rest) :
    Makes (toString value.toInt).toList [.int value] rest := by
  rw [Int.toString_eq_repr, Int.repr_eq_if]
  split
  · rename_i hsign
    obtain ⟨d, ds, hds⟩ := List.exists_cons_of_ne_nil
      (Nat.toDigits_ne_nil (n := value.toInt.toNat) (b := 10))
    have hall : ∀ c ∈ d :: ds, c.isDigit = true := fun c hc ↦ isDigit_of_mem_toDigits (hds ▸ hc)
    have hd := hall d List.mem_cons_self
    have hminus : d ≠ '-' := by
      rintro rfl
      cases hd
    have hvalue : value.toInt = if false then -(value.toInt.toNat : Int) else value.toInt.toNat :=
      (Int.toNat_of_nonneg hsign).symm
    rw [Nat.toList_repr, hds]
    refine makes_integer (.inr hd) (fun c hc ↦ hall c (List.mem_cons_of_mem d hc)) ?_ hrest
    rw [if_neg hminus, ← hds]
    exact int64?_toDigits hvalue
  · rename_i hsign
    have hvalue : value.toInt =
        if true then -((-value.toInt).toNat : Int) else (-value.toInt).toNat := by
      rw [if_pos rfl]
      omega
    rw [String.toList_append, Nat.toList_repr]
    exact makes_integer (.inl rfl) (fun c ↦ isDigit_of_mem_toDigits) (int64?_toDigits hvalue) hrest

/-! ## Quotations -/

/-- What can stand between the quotes of a string: characters other than quotes and backslashes,
and backslashes that each take the character behind along. -/
inductive QuotedText : List Char → Prop
  | nil : QuotedText []
  | plain {c : Char} {cs : List Char} (hquote : c ≠ '"') (hescape : c ≠ '\\') (h : QuotedText cs) :
    QuotedText (c :: cs)
  | escaped {c : Char} {cs : List Char} (h : QuotedText cs) : QuotedText ('\\' :: c :: cs)

/-- The text is a string with its quotes. -/
def IsQuotation (text : String) : Prop :=
  ∃ inner, QuotedText inner ∧ text.toList = '"' :: inner ++ ['"']

/-- A string ends at the quote behind what can stand between quotes. -/
theorem QuotedText.closeString_eq {inner : List Char} (h : QuotedText inner) (rest : List Char) :
    Lexeme.closeString (inner ++ '"' :: rest) = some (inner ++ ['"'], rest) := by
  induction h with
  | nil => rfl
  | @plain c cs hquote hescape h ih =>
    rw [List.cons_append, Lexeme.closeString, ih]
    · rfl
    · rintro d ds rfl
      exact absurd rfl hescape
    · exact hquote
  | escaped h ih =>
    rw [List.cons_append, List.cons_append, Lexeme.closeString, ih]
    rfl

/-- What stands in front of the end of a string can stand between quotes. -/
theorem exists_quotedText_of_closeString {cs text rest : List Char}
    (h : Lexeme.closeString cs = some (text, rest)) :
    ∃ inner, QuotedText inner ∧ text = inner ++ ['"'] := by
  fun_induction Lexeme.closeString cs generalizing text with
  | case1 c cs ih =>
    simp only [Option.map_eq_some_iff, Prod.mk.injEq] at h
    obtain ⟨⟨t, r⟩, hr, rfl, rfl⟩ := h
    obtain ⟨inner, hinner, rfl⟩ := ih hr
    exact ⟨_, .escaped hinner, rfl⟩
  | case2 =>
    cases h
    exact ⟨[], .nil, rfl⟩
  | case3 c cs hescape hquote ih =>
    simp only [Option.map_eq_some_iff, Prod.mk.injEq] at h
    obtain ⟨⟨t, r⟩, hr, rfl, rfl⟩ := h
    obtain ⟨inner, hinner, rfl⟩ := ih hr
    refine ⟨_, .plain hquote ?_ hinner, rfl⟩
    -- a backslash that takes nothing along is the last character, and then no string ends
    rintro rfl
    rcases cs with _ | ⟨d, ds⟩
    · cases hr
    · exact hescape d ds rfl rfl
  | case4 => cases h

/-- A quotation is a string that ends where the text does. -/
theorem isQuotation_iff {text : String} : IsQuotation text ↔
    text.toList.head? = some '"' ∧
      Lexeme.closeString text.toList.tail = some (text.toList.tail, []) := by
  constructor
  · rintro ⟨inner, hinner, htext⟩
    rw [htext]
    exact ⟨rfl, hinner.closeString_eq []⟩
  · rintro ⟨hfirst, hclose⟩
    obtain ⟨inner, hinner, htail⟩ := exists_quotedText_of_closeString hclose
    refine ⟨inner, hinner, ?_⟩
    rw [List.cons_append, ← htail]
    exact (List.cons_head?_tail hfirst).symm

instance (text : String) : Decidable (IsQuotation text) := decidable_of_iff _ isQuotation_iff.symm

theorem IsQuotation.makes {text : String} (h : IsQuotation text) (rest : List Char) :
    Makes text.toList [.symbol text] rest := by
  obtain ⟨inner, hinner, htext⟩ := h
  rw [htext, List.cons_append]
  refine Makes.of_lexeme ?_ nofun
  have hstring : lexeme '"' (inner ++ ['"'] ++ rest) =
      Lexeme.string '"' (inner ++ ['"'] ++ rest) := rfl
  rw [hstring, Lexeme.string, List.append_assoc, List.singleton_append, hinner.closeString_eq]
  dsimp only
  rw [← List.cons_append, ← htext, String.ofList_toList]

/-! ## Atoms -/

/-- A term whose text reads as itself. -/
def Term.Legible : Term → Prop
  | .int _ => True
  | .symbol text => IsConstant text ∨ IsQuotation text

instance : (t : Term) → Decidable t.Legible
  | .int _ => .isTrue trivial
  | .symbol text => inferInstanceAs (Decidable (IsConstant text ∨ IsQuotation text))

/-- An atom whose text reads as itself. -/
structure Atom.Legible (a : Atom) : Prop where
  predicate : IsConstant a.predicate
  args : ∀ t ∈ a.args, t.Legible

instance (a : Atom) : Decidable a.Legible :=
  decidable_of_iff (IsConstant a.predicate ∧ ∀ t ∈ a.args, t.Legible)
    ⟨fun ⟨hpredicate, hargs⟩ ↦ ⟨hpredicate, hargs⟩, fun h ↦ ⟨h.predicate, h.args⟩⟩

/-- The token that a term is written as. -/
def Term.token : Term → Token
  | .int value => .int value
  | .symbol text => .symbol text

theorem Term.Legible.makes {t : Term} (h : t.Legible) {rest : List Char} (hrest : Delimits rest) :
    Makes t.render.toList [t.token] rest := by
  cases t with
  | int value => exact makes_int value hrest
  | symbol text =>
    rcases h with h | h
    · exact h.makes hrest
    · exact h.makes rest

/-- The tokens of terms between commas, and the bracket that closes them. -/
def argTokens : List Term → List Token
  | [] => [.closeParen]
  | [t] => [t.token, .closeParen]
  | t :: u :: ts => t.token :: .comma :: argTokens (u :: ts)

theorem listTokens_map_const {ts : List Term} (hne : ts ≠ []) :
    Arg.listTokens (ts.map .const) ++ [.closeParen] = argTokens ts := by
  have htoken : ∀ t : Term, (Arg.const t).token = t.token := by
    rintro (value | text) <;> rfl
  induction ts with
  | nil => exact absurd rfl hne
  | cons t ts ih =>
    cases ts with
    | nil => simp [Arg.listTokens_singleton, argTokens, htoken]
    | cons u us =>
      have hrest := ih (List.cons_ne_nil u us)
      rw [List.map_cons, Arg.listTokens_cons (by simp), htoken, argTokens, ← hrest]
      rfl

theorem makes_args {ts : List Term} (hne : ts ≠ []) (hts : ∀ t ∈ ts, t.Legible)
    (rest : List Char) :
    Makes ((", ".intercalate (ts.map Term.render)).toList ++ [')']) (argTokens ts) rest := by
  induction ts with
  | nil => exact absurd rfl hne
  | cons t ts ih =>
    obtain ⟨ht, hts⟩ := List.forall_mem_cons.1 hts
    cases ts with
    | nil =>
      rw [List.map_singleton, String.intercalate_singleton]
      exact (ht.makes (delimits_cons (by decide) rest)).append (Makes.closeParen rest)
    | cons u us =>
      have hrest := ih (List.cons_ne_nil u us) hts
      rw [List.map_cons, List.map_cons, String.intercalate_cons_cons, ← List.map_cons,
        String.toList_append, String.toList_append, List.append_assoc, List.append_assoc]
      exact (ht.makes (delimits_cons (by decide) _)).append ((Makes.comma _).append hrest)

/-- The pattern that matches the atom alone. -/
def Atom.pattern (a : Atom) : Pattern := ⟨a.predicate, a.args.map .const⟩

/-- **A legible atom makes the tokens of its pattern** and nothing else. -/
theorem Atom.Legible.makes {a : Atom} (h : a.Legible) {rest : List Char} (hrest : Delimits rest) :
    Makes a.render.toList a.pattern.tokens rest := by
  rw [render, Pattern.tokens]
  by_cases hargs : a.args = []
  · have hpattern : a.pattern.args = [] := List.map_eq_nil_iff.2 hargs
    rw [if_pos (List.isEmpty_iff.2 hargs), if_pos hpattern]
    exact h.predicate.makes hrest
  · have hpattern : a.pattern.args ≠ [] := mt List.map_eq_nil_iff.1 hargs
    rw [if_neg (mt List.isEmpty_iff.1 hargs), if_neg hpattern, List.cons_append, Atom.pattern,
      listTokens_map_const hargs]
    simp only [String.toList_append, List.append_assoc]
    have hbrackets := (Makes.openParen _).append (makes_args hargs h.args rest)
    exact (h.predicate.makes (delimits_cons (by decide) _)).append hbrackets

/-! ## What the lexer makes -/

namespace Lexeme

variable {c : Char} {cs : List Char} {l : Lexeme} {text : String}

theorem token?_of_comment (h : comment c cs = .ok l) : l.token? = none := by
  unfold comment at h
  split at h
  · split at h <;> cases h
    rfl
  · cases h
    rfl

theorem token?_of_directive (h : directive c cs = .ok l) : l.token? = none := by
  unfold directive at h
  dsimp only at h
  repeat' split at h
  all_goals cases h
  rfl

theorem token?_inequality_ne {alone withEqual : Comparison} :
    (inequality c cs alone withEqual).token? ≠ some (.symbol text) := by
  unfold inequality
  split <;> exact nofun

theorem token?_ne_of_integer (h : integer c cs = .ok l) : l.token? ≠ some (.symbol text) := by
  unfold integer at h
  dsimp only at h
  split at h <;> cases h
  exact nofun

/-- No sign is a symbol. -/
theorem token?_ne_of_sign (h : sign c cs = .ok l) : l.token? ≠ some (.symbol text) := by
  unfold sign at h
  split at h
  case h_1 =>
    rw [token?_of_comment h]
    exact nofun
  case h_2 =>
    rw [token?_of_directive h]
    exact nofun
  all_goals cases h
  all_goals first | exact token?_inequality_ne | exact nofun

end Lexeme

theorem legible_of_string {cs : List Char} {l : Lexeme} {text : String}
    (h : Lexeme.string '"' cs = .ok l) (htoken : l.token? = some (.symbol text)) :
    (Term.symbol text).Legible := by
  unfold Lexeme.string at h
  split at h <;> cases h
  rename_i hclose
  obtain ⟨inner, hinner, rfl⟩ := exists_quotedText_of_closeString hclose
  cases htoken
  exact .inr ⟨inner, hinner, by rw [String.toList_ofList, List.cons_append]⟩

/-- A word that begins with a small letter is a symbol, unless it is the sign of negation. -/
theorem legible_of_word {c : Char} {cs : List Char} {text : String} (hlower : c.isLower = true)
    (htoken : (Lexeme.word c cs fun name ↦
      if name = "not" then .negation else .symbol name).token? = some (.symbol text)) :
    (Term.symbol text).Legible := by
  rw [Lexeme.word, Option.some_inj] at htoken
  split at htoken
  · cases htoken
  · rename_i hnot
    cases htoken
    refine .inl ⟨by simpa using hlower, ?_, by simp, hnot⟩
    have hfirst : isWordChar c = true := by
      show (c.isUpper || c.isLower || c.isDigit || c == '_' || c == '\'') = true
      simp [hlower]
    rw [String.toList_ofList]
    exact List.forall_mem_cons.2 ⟨hfirst, List.all_eq_true.1 List.all_takeWhile⟩

/-- A symbol that the lexer makes is legible. -/
theorem legible_of_lexeme {c : Char} {cs : List Char} {l : Lexeme} {text : String}
    (h : lexeme c cs = .ok l) (htoken : l.token? = some (.symbol text)) :
    (Term.symbol text).Legible := by
  unfold lexeme at h
  split at h
  · cases h
    cases htoken
  split at h
  · rename_i hquote
    exact legible_of_string (hquote ▸ h) htoken
  split at h
  · exact absurd htoken (Lexeme.token?_ne_of_integer h)
  split at h
  · rename_i hlower
    cases h
    exact legible_of_word hlower htoken
  split at h
  · cases h
    cases htoken
  · exact absurd htoken (Lexeme.token?_ne_of_sign h)

/-- **The lexer makes no symbols but legible ones.** -/
theorem legible_of_mem_scan {line seen : Nat} {cs : List Char} {ts : List Located}
    (h : scan line seen cs = .ok ts) {text : String} (ht : .symbol text ∈ ts.map Located.token) :
    (Term.symbol text).Legible := by
  fun_induction scan line seen cs generalizing ts with
  | case1 =>
    cases h
    cases ht
  | case2 => cases h
  | case3 line seen c cs l hl htoken ih => exact ih h ht
  | case4 line seen c cs l hl htoken ih =>
    cases hrest : scan (l.lineAfter line) (seen + 1) l.rest with
    | error e =>
      rw [hrest] at h
      cases h
    | ok us =>
      rw [hrest] at h
      cases h
      rcases List.mem_cons.1 ht with hvar | ht
      · cases hvar
      · exact ih hrest ht
  | case5 line seen c cs l hl token htoken hnamed ih =>
    cases hrest : scan (l.lineAfter line) seen l.rest with
    | error e =>
      rw [hrest] at h
      cases h
    | ok us =>
      rw [hrest] at h
      cases h
      rcases List.mem_cons.1 ht with rfl | ht
      · exact legible_of_lexeme hl htoken
      · exact ih hrest ht

end RightOfWay
