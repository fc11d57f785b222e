import RightOfWay.Oracle.Solver
import RightOfWay.Proofs.Attempts
import RightOfWay.Proofs.Rules.GroundAtoms

/-!
# Reports are read as a whole

A report with models lists atoms as text, in a list for each model, and these lists in a list for
each call of the solver.  One text that is no atom makes the whole of it an error, so that no model
is acted upon that may lack an atom.

* `Report.Lists` says that the texts of a witness are those of the atoms of a model.  This decides
  what a witness is read as (`Report.readWitness_eq_ok_iff`), and witnesses are read one by one
  (`Report.outcome_eq_ok_iff`).
* The texts of legible atoms list them in any order (`Report.lists_render`), so a report that is
  written from models is read as these models.

All this is put together in `Report.outcome_exact`.
-/

set_option autoImplicit false

namespace RightOfWay

namespace Report

/-- All texts are atoms. -/
def IsReadable (texts : List String) : Prop := ∀ text ∈ texts, ∃ a, parseAtom text = .ok a

/-- The atoms of the model are those that the texts are read as. -/
def Lists (texts : List String) (m : Model) : Prop :=
  ∀ a, a ∈ m ↔ ∃ text ∈ texts, parseAtom text = .ok a

/-- The report says that the solver has found models. -/
def ReportsModels (r : Report) : Prop := r.result = "SATISFIABLE" ∨ r.result = "OPTIMUM FOUND"

variable {r : Report} {texts : List String} {m : Model} {ms : List Model}

/-! ## Witnesses -/

/-- A witness is read as the model that it lists, if all its texts are atoms. -/
theorem readWitness_eq_ok_iff : readWitness texts = .ok m ↔ IsReadable texts ∧ Lists texts m := by
  constructor
  · intro h
    obtain ⟨as, has, rfl⟩ := exists_of_map_eq_ok h
    refine ⟨exists_mapM_iff.1 ⟨as, has⟩, fun a ↦ ?_⟩
    rw [Model.mem_ofAtoms, mem_of_mapM_eq_ok has]
  · rintro ⟨hreadable, hlists⟩
    obtain ⟨as, has⟩ := exists_mapM_iff.2 hreadable
    have hm : Model.ofAtoms as = m := Std.ExtTreeSet.ext_mem fun a ↦ by
      rw [Model.mem_ofAtoms, mem_of_mapM_eq_ok has, hlists]
    rw [readWitness, has, ← hm]
    rfl

theorem exists_readWitness_iff : (∃ m, readWitness texts = .ok m) ↔ IsReadable texts := by
  refine ⟨fun ⟨_, h⟩ ↦ (readWitness_eq_ok_iff.1 h).1, fun h ↦ ?_⟩
  obtain ⟨as, has⟩ := exists_mapM_iff.2 h
  exact ⟨.ofAtoms as, congrArg _ has⟩

/-- The texts of legible atoms are read as these atoms, in whatever order they come. -/
theorem lists_render (hlegible : ∀ a ∈ m, a.Legible)
    (htexts : texts.Perm (m.toList.map Atom.render)) : IsReadable texts ∧ Lists texts m := by
  have hmem : ∀ text, text ∈ texts ↔ ∃ a ∈ m, a.render = text := fun text ↦ by
    rw [htexts.mem_iff, List.mem_map]
    simp only [Std.ExtTreeSet.mem_toList]
  constructor
  · intro text htext
    obtain ⟨a, ha, rfl⟩ := (hmem text).1 htext
    exact ⟨a, parseAtom_render (hlegible a ha)⟩
  · intro a
    constructor
    · exact fun ha ↦ ⟨a.render, (hmem _).2 ⟨a, ha, rfl⟩, parseAtom_render (hlegible a ha)⟩
    · rintro ⟨text, htext, hread⟩
      obtain ⟨b, hb, rfl⟩ := (hmem text).1 htext
      rw [parseAtom_render (hlegible b hb)] at hread
      exact Except.ok.inj hread ▸ hb

/-! ## Reports -/

theorem outcome_eq_models (h : r.ReportsModels) : r.outcome =
    match r.readModels with
    | .ok ms => .ok (.models ms)
    | .error e => .error (.unreadableAtom e) :=
  if_pos h

/-- A report with models is read if all witnesses are. -/
theorem outcome_eq_ok_iff (h : r.ReportsModels) {o : Outcome} : r.outcome = .ok o ↔
    ∃ ms, o = .models ms ∧ r.calls.flatten.Forall₂ (fun w m ↦ readWitness w = .ok m) ms := by
  simp only [outcome_eq_models h, ← mapM_eq_ok_iff]
  rw [← readModels]
  rcases r.readModels with e | ms
  · simp
  · simp [eq_comm]

theorem exists_outcome_iff (h : r.ReportsModels) :
    (∃ o, r.outcome = .ok o) ↔ ∀ call ∈ r.calls, ∀ texts ∈ call, IsReadable texts := by
  have hflatten : (∀ call ∈ r.calls, ∀ texts ∈ call, IsReadable texts) ↔
      ∀ texts ∈ r.calls.flatten, ∃ m, readWitness texts = .ok m := by
    simp only [exists_readWitness_iff, List.mem_flatten]
    exact ⟨fun hall texts ⟨call, hcall, htexts⟩ ↦ hall call hcall texts htexts,
      fun hall call hcall texts htexts ↦ hall texts ⟨call, hcall, htexts⟩⟩
  simp only [hflatten, ← exists_mapM_iff, outcome_eq_ok_iff h, mapM_eq_ok_iff]
  exact ⟨fun ⟨_, ms, _, hms⟩ ↦ ⟨ms, hms⟩, fun ⟨ms, hms⟩ ↦ ⟨_, ms, rfl, hms⟩⟩

/-- Witnesses that are written from models are read as these. -/
theorem forall₂_readWitness {ws : List (List String)}
    (hlegible : ∀ m ∈ ms, ∀ a ∈ m, a.Legible)
    (h : ws.Forall₂ (fun texts m ↦ texts.Perm (m.toList.map Atom.render)) ms) :
    ws.Forall₂ (fun w m ↦ readWitness w = .ok m) ms := by
  induction h with
  | nil => exact .nil
  | cons htexts _ ih =>
    obtain ⟨hm, hms⟩ := List.forall_mem_cons.1 hlegible
    exact .cons (readWitness_eq_ok_iff.2 (lists_render hm htexts)) (ih hms)

theorem outcome_of_unreadable (h : r.ReportsModels) {w : List String} (hw : w ∈ r.calls.flatten)
    (hunreadable : ¬ IsReadable w) : ∃ e, r.outcome = .error (.unreadableAtom e) := by
  rw [outcome_eq_models h]
  rcases hmodels : r.readModels with e | ms
  · exact ⟨e, rfl⟩
  · exact absurd (exists_readWitness_iff.1 (exists_mapM_iff.1 ⟨ms, hmodels⟩ w hw)) hunreadable

/-- Only a report that says so has models. -/
theorem reportsModels_of_outcome (h : r.outcome = .ok (.models ms)) : r.ReportsModels := by
  rw [outcome] at h
  split at h
  · assumption
  · split at h
    · cases h
    · split at h <;> cases h

/-- Output that is read as an unreadable report makes the solver's answer a failure. -/
theorem reply_of_unreadable {s : Solver} {printed : SolverOutput} {program : Program}
    {cap : Nat} {error : SolverError} (request : Nat)
    (hrun : s.run (Solver.arguments cap) program.text = .ok printed)
    (hread : (Json.read? printed.output).bind ofJson? = some r)
    (herror : r.outcome = .error error) :
    ∃ failure, (Oracle.external s).reply request program cap = .outcome (.failure failure) := by
  have hsolve : ∃ error, s.solve program cap = .error error := by
    rw [Solver.solve, hrun]
    dsimp only
    split
    · exact ⟨_, rfl⟩
    · refine ⟨error, ?_⟩
      rw [read, hread]
      exact herror
  obtain ⟨error, hsolve⟩ := hsolve
  refine ⟨.solver error, ?_⟩
  rw [Oracle.external]
  dsimp only
  rw [hsolve]

/-- **A report with models is read as a whole or not at all.**  Take any report.

* If it says that there are models, then it is read if and only if every text of every witness of
  every call is an atom.  What comes of it are the models that the witnesses list, in order, each
  with the atoms of its witness and no others.
* With one text that is no atom, the report is an error, and a solver whose output it is answers
  with a failure.
* If the witnesses hold the atoms of models as text, in any order and spread over any calls, and
  these atoms are legible, then it is read as exactly these models.
* If it does not say that there are models, it has none. -/
theorem outcome_exact (r : Report) :
    (r.ReportsModels →
      ((∃ o, r.outcome = .ok o) ↔
        ∀ call ∈ r.calls, ∀ texts ∈ call, ∀ text ∈ texts, ∃ a, parseAtom text = .ok a) ∧
      (∀ o, r.outcome = .ok o →
        ∃ ms, o = .models ms ∧ r.calls.flatten.Forall₂
          (fun texts m ↦ ∀ a, a ∈ m ↔ ∃ text ∈ texts, parseAtom text = .ok a) ms) ∧
      (∀ call ∈ r.calls, ∀ texts ∈ call, ∀ text ∈ texts, (∀ a, parseAtom text ≠ .ok a) →
        (∃ e, r.outcome = .error (.unreadableAtom e)) ∧
        ∀ (s : Solver) (request : Nat) (program : Program) (cap : Nat) (printed : SolverOutput),
          s.run (Solver.arguments cap) program.text = .ok printed →
          (Json.read? printed.output).bind ofJson? = some r →
          ∃ failure, (Oracle.external s).reply request program cap = .outcome (.failure failure)) ∧
      (∀ ms : List Model, (∀ m ∈ ms, ∀ a ∈ m, a.Legible) →
        r.calls.flatten.Forall₂ (fun texts m ↦ texts.Perm (m.toList.map Atom.render)) ms →
        r.outcome = .ok (.models ms))) ∧
    ∀ ms, r.outcome = .ok (.models ms) → r.ReportsModels := by
  refine ⟨fun h ↦ ⟨exists_outcome_iff h, fun o ho ↦ ?_,
    fun call hcall texts htexts text htext hbad ↦ ?_, fun ms hms htexts ↦ ?_⟩,
    fun _ ↦ reportsModels_of_outcome⟩
  · obtain ⟨ms, rfl, hms⟩ := (outcome_eq_ok_iff h).1 ho
    exact ⟨ms, rfl, hms.imp fun _ _ hw ↦ (readWitness_eq_ok_iff.1 hw).2⟩
  · have hunreadable : ¬ IsReadable texts := fun hreadable ↦ by
      obtain ⟨a, ha⟩ := hreadable text htext
      exact hbad a ha
    obtain ⟨e, he⟩ := outcome_of_unreadable h (List.mem_flatten_of_mem hcall htexts) hunreadable
    exact ⟨⟨e, he⟩, fun s request program cap printed hrun hread ↦
      reply_of_unreadable request hrun hread he⟩
  · exact (outcome_eq_ok_iff h).2 ⟨ms, rfl, forall₂_readWitness hms htexts⟩

/-- Three models in three calls, one of them without witnesses. -/
def scattered : Report :=
  ⟨"OPTIMUM FOUND", [[remarks.reverse.map Atom.render], [], [["go(1)"], []]]⟩

/-- A report in which one of two texts is no atom. -/
def mistaken : Report := ⟨"SATISFIABLE", [[["go", "go(f(a))"]]]⟩

/-- The solver that prints this report, whatever it is asked. -/
def mistakenSolver : Solver where
  executable := "clingo"
  run _ _ := .ok
    ⟨"\x7b\"Call\":[\x7b\"Witnesses\":[\x7b\"Value\":[\"go\",\"go(f(a))\"]\x7d]\x7d]," ++
      "\"Result\":\"SATISFIABLE\"\x7d", ""⟩

theorem outcome_exact_scattered :
    scattered.outcome = .ok (.models [.ofAtoms remarks, .ofAtoms [⟨"go", [.int 1]⟩], .ofAtoms []]) ∧
      (∃ e, mistaken.outcome = .error (.unreadableAtom e)) ∧
      ∃ failure, (Oracle.external mistakenSolver).reply 0 ⟨"go."⟩ 1 =
        .outcome (.failure failure) := by
  obtain ⟨hscattered, -⟩ := outcome_exact scattered
  obtain ⟨-, -, -, hmodels⟩ := hscattered (.inr rfl)
  obtain ⟨hmistaken, -⟩ := outcome_exact mistaken
  obtain ⟨-, -, hbad, -⟩ := hmistaken (.inl rfl)
  have hunreadable : ∀ a, parseAtom "go(f(a))" ≠ .ok a := by
    have herror : (parseAtom "go(f(a))").isOk = false := by decide +kernel
    intro a ha
    rw [ha] at herror
    cases herror
  obtain ⟨he, hreply⟩ := hbad [["go", "go(f(a))"]] (by decide) ["go", "go(f(a))"] (by decide)
    "go(f(a))" (by decide) hunreadable
  have hlegible : ∀ as ∈ [remarks, [⟨"go", [.int 1]⟩], []], ∀ a ∈ as, a.Legible := by decide
  refine ⟨hmodels ([remarks, [⟨"go", [.int 1]⟩], []].map .ofAtoms) ?_ ?_, he,
    hreply mistakenSolver 0 _ 1 _ rfl (by cbv)⟩
  · exact List.forall_mem_map.2 fun as has a ha ↦ hlegible as has a (Model.mem_ofAtoms.1 ha)
  · exact .cons (by decide +kernel) (.cons (by decide +kernel) (.cons (by decide +kernel) .nil))

end Report
end RightOfWay
