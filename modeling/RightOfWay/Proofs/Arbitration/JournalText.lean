import RightOfWay.Arbitration.Journal
import RightOfWay.Proofs.Rules.Renumbering

/-!
# The journal as program text

Both files of a journal can be read as programs.

* The file with the facts gives one fact for each atom, below the line with their hash
  (`Journal.parseProgram_geometryText`).
* A log gives the rules of all programs in it, one after the other.  Programs lose nothing by
  standing behind each other, as none of them has an open string or an open comment, and between
  them are lines that hold a comment (`Journal.holds_entry`).
-/

set_option autoImplicit false

namespace RightOfWay

/-! ## Single lines -/

theorem Fingerprint.lineEnd_notMem_text (f : Fingerprint) : '\n' ∉ f.text.toList := by
  have hdigit : ∀ n < 16, '\n' ≠ Nat.digitChar n := by decide
  have hhex : '\n' ∉ f.hex.toList := by
    rw [hex, String.toList_ofList, List.mem_flatMap]
    rintro ⟨b, -, hb⟩
    have hbyte := b.toNat_lt
    simp only [List.mem_cons, List.not_mem_nil, or_false] at hb
    rcases hb with hb | hb
    · exact hdigit _ (by omega) hb
    · exact hdigit _ (Nat.mod_lt _ (by decide)) hb
  rw [text, String.toList_append, List.mem_append, not_or]
  exact ⟨by decide, hhex⟩

namespace Journal

/-- The comment above facts with the hash, behind its `%`. -/
def geometryRemark (hash : Fingerprint) : String := " geometry " ++ hash.text

/-- The comment above a program in a log, behind its `%`. -/
def programRemark (number : Nat) (time : Stamp) (hash : Fingerprint) : String :=
  " program " ++ toString number ++ " " ++ time.text ++ " " ++ hash.text

theorem isRemark_geometry (hash : Fingerprint) : IsRemark (geometryRemark hash).toList := by
  rw [geometryRemark, String.toList_append]
  refine ⟨by simp, ?_⟩
  rw [List.mem_append, not_or]
  exact ⟨by decide, hash.lineEnd_notMem_text⟩

theorem isRemark_program (number : Nat) (time : Stamp) (hash : Fingerprint) :
    IsRemark (programRemark number time hash).toList := by
  have hnumber : '\n' ∉ (toString number).toList := by
    rw [Nat.toString_eq_repr, Nat.toList_repr]
    exact lineEnd_notMem_toDigits number
  simp only [programRemark, String.toList_append]
  refine ⟨by simp, ?_⟩
  simp only [List.mem_append, not_or]
  exact ⟨⟨⟨⟨⟨by decide, hnumber⟩, by decide⟩, time.no_line_end⟩, by decide⟩,
    hash.lineEnd_notMem_text⟩

/-! ## Facts -/

/-- **The file with the facts is a program** of one rule without a body for each of them, the first
one on the second line. -/
theorem parseProgram_geometryText {f : Facts} (h : ∀ a ∈ f.atoms, a.Plain) :
    parseProgram (geometryText f) = .ok (f.atoms.mapIdx fun k a ↦ Rule.ofAtom a (2 + k)) := by
  have htext : (geometryText f).toList =
      '%' :: (geometryRemark f.fingerprint).toList ++ '\n' :: f.text.toList := by
    simp [geometryText, geometryRemark]
  have htokens : tokens (geometryText f) = .ok (factTokens 2 f.atoms) := by
    have hscan := scan_renderFacts (fun a ha ↦ (h a ha).inline) 2 0 []
    simp only [List.append_nil, scan_nil, Except.map] at hscan
    rw [tokens, htext, (isRemark_geometry _).scan_line, Facts.text, hscan]
  have hread := statements_factTokens (fun a ha ↦ (h a ha).inline.toLegible) 0 2 []
  simp only [Grammar.statements_nil, List.append_nil] at hread
  refine parseProgram_eq_ok_iff.2 ⟨_, htokens, Grammar.statements_eq_iff.1 hread, fun r hr ↦ ?_⟩
  obtain ⟨k, hk, rfl⟩ := List.mem_mapIdx.1 hr
  exact Rule.unsafeVar?_ofAtom _ _

/-! ## Programs -/

/-- An entry of a log: a line with the number, the time and the hash of a program, and the text of
the program on the lines below. -/
def entry (clock : Nat → Stamp) (number : Nat) (p : Program) : String :=
  "%" ++ programRemark number (clock number) p.fingerprint ++ "\n" ++ withLineEnd p.text

theorem header_eq (j : Journal) (number : Nat) (p : Program) :
    j.header number p = "%" ++ programRemark number (j.clock number) p.fingerprint ++ "\n" := by
  have hremark : "% program " = "%" ++ " program " := by decide
  show "% program " ++ toString number ++ " " ++ (j.clock number).text ++ " " ++
    p.fingerprint.text ++ "\n" = _
  simp only [programRemark, hremark, String.append_assoc]

theorem append_eq (j : Journal) (p : Program) :
    j.append p = { j with
      log := j.log ++ entry j.clock (j.entries + 1) p
      entries := j.entries + 1 } := by
  rw [append, header_eq, String.append_assoc]
  rfl

variable {text : String} {p : Program} {ds : List Char} {rs ss : List Rule}

theorem holds_withLineEnd (h : Holds text.toList rs) (h' : Holds ds ss) :
    Holds ((withLineEnd text).toList ++ ds) (rs ++ ss) := by
  rw [withLineEnd]
  split
  · rename_i hlast
    obtain ⟨cs, hcs⟩ := List.getLast?_eq_some_iff.1 hlast
    rw [hcs] at h ⊢
    rw [List.append_assoc]
    exact h.of_lineEnd.line h'
  · rw [String.toList_append, List.append_assoc]
    exact h.line h'

/-- An entry in front of a text adds the rules of its program. -/
theorem holds_entry (clock : Nat → Stamp) (number : Nat) (h : Holds p.text.toList rs)
    (h' : Holds ds ss) : Holds ((entry clock number p).toList ++ ds) (rs ++ ss) := by
  have htext : (entry clock number p).toList ++ ds =
      '%' :: (programRemark number (clock number) p.fingerprint).toList ++
        '\n' :: ((withLineEnd p.text).toList ++ ds) := by
    simp [entry]
  rw [htext, ← List.nil_append (rs ++ ss)]
  exact (isRemark_program _ _ _).writes.holds.line (holds_withLineEnd h h')

end Journal
end RightOfWay
