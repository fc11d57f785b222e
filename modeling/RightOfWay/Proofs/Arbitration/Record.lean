import RightOfWay.Proofs.Arbitration.Compilation
import RightOfWay.Proofs.Arbitration.JournalText
import RightOfWay.Proofs.Arbitration.Solving

/-!
# The journal is a record

What a session leaves behind in the two files of its journal.

* `Session.lastCompiled` are the facts about the crossing that were compiled last, and
  `Journal.logText` is the log of the solutions.
* `Monitor.Keeps` says that the journal has both, and that journal and advisor count alike.  Every
  call keeps that up (`Session.keeps_act`).

So the files tell what was solved and what the crossing was like, and programs that are read back
from them are those that were solved (`record_of_session`).
-/

set_option autoImplicit false

namespace RightOfWay

/-- The log of the solutions. -/
def Journal.logText (clock : Nat → Stamp) (solutions : List Solution) : String :=
  String.join (solutions.map fun s ↦ entry clock s.sequence s.program)

theorem Journal.logText_concat (clock : Nat → Stamp) (solutions : List Solution) (s : Solution) :
    logText clock (solutions ++ [s]) =
      logText clock solutions ++ entry clock s.sequence s.program := by
  simp [logText]

/-- The log of solutions holds the rules of all their programs. -/
theorem Journal.holds_logText (clock : Nat → Stamp) {solutions : List Solution}
    {programs : List (List Rule)}
    (h : List.Forall₂ (fun s rs ↦ parseProgram s.program.text = .ok rs) solutions programs) :
    Holds (logText clock solutions).toList programs.flatten := by
  rw [logText, String.toList_join]
  induction h with
  | nil => exact Writes.nil.holds
  | cons hs _ ih => exact holds_entry clock _ (holds_of_parseProgram hs) ih

namespace Monitor

/-- The facts about the crossing that were compiled last, when they have been brought up to date. -/
def refreshed (m : Monitor) (compiled : Facts) : Facts :=
  if m.cache.isStale m.topology.revision then .compile m.topology m.probe else compiled

/-- The journal of the monitor has the facts and the solutions, and all solves are counted. -/
structure Keeps (name : String) (clock : Nat → Stamp) (compiled : Facts)
    (solutions : List Solution) (m : Monitor) : Prop where
  journal : m.journal? = some ⟨name, clock, Journal.geometryText compiled,
    Journal.logText clock solutions, solutions.length⟩
  solves : m.advisor.solves = solutions.length
  numbered : solutions.map Solution.sequence = List.range' 1 solutions.length

variable {name : String} {clock : Nat → Stamp} {compiled : Facts} {solutions : List Solution}
  {m m' : Monitor}

theorem Keeps.congr (h : m.Keeps name clock compiled solutions)
    (hjournal : m'.journal? = m.journal?) (hadvisor : m'.advisor = m.advisor) :
    m'.Keeps name clock compiled solutions :=
  ⟨hjournal.trans h.journal, hadvisor ▸ h.solves, h.numbered⟩

theorem geometry_of_isStale (h : m.cache.isStale m.topology.revision = true) :
    m.geometry = .compile m.topology m.probe := by
  rw [FactsCache.isStale, Option.isNone_iff_eq_none] at h
  rw [geometry, FactsCache.lookup, h]
  rfl

theorem Keeps.refresh (h : m.Keeps name clock compiled solutions) :
    m.refresh.Keeps name clock (m.refreshed compiled) solutions := by
  refine ⟨?_, h.solves, h.numbered⟩
  rw [Monitor.refresh, refreshed]
  by_cases hstale : m.cache.isStale m.topology.revision = true
  · rw [if_pos hstale, if_pos hstale, h.journal, geometry_of_isStale hstale]
    rfl
  · rw [if_neg hstale, if_neg hstale, h.journal]

theorem Keeps.solve (h : m.Keeps name clock compiled solutions) :
    m.solve.2.Keeps name clock (m.refreshed compiled) (solutions ++ [m.solve.1]) := by
  have hnumber : m.solve.1.sequence = solutions.length + 1 := congrArg (· + 1) h.solves
  refine ⟨?_, ?_, ?_⟩
  · have hjournal : m.solve.2.journal? = m.refresh.journal?.map (·.append m.program) := rfl
    rw [hjournal, h.refresh.journal, Option.map_some, Journal.append_eq, Journal.logText_concat,
      hnumber, List.length_append]
    rfl
  · rw [List.length_append]
    exact hnumber
  · rw [List.map_append, h.numbered, List.map_singleton, hnumber, List.length_append,
      List.length_singleton, List.range'_concat]
    simp [Nat.add_comm]

end Monitor

namespace Session

variable {name : String} {clock : Nat → Stamp} {compiled : Facts} {s : Session}

/-- The facts about the crossing that were compiled last, when the calls have been made. -/
def lastCompiled (s : Session) (compiled : Facts) : List Action → Facts
  | [] => compiled
  | a :: actions =>
    (s.act a).lastCompiled
      (if s.recompiles a then .compile s.monitor.topology s.monitor.probe else compiled) actions

/-- Every call puts into the journal what it compiles and what it solves. -/
theorem keeps_act (h : s.monitor.Keeps name clock compiled s.solutions) (a : Action) :
    (s.act a).monitor.Keeps name clock
      (if s.recompiles a then .compile s.monitor.topology s.monitor.probe else compiled)
      (s.act a).solutions := by
  cases a with
  | attach v handle => exact h.congr rfl rfl
  | event e =>
    by_cases he : e.isDeparture = true
    · have hidle : s.recompiles (.event e) = false := by rw [recompiles, Action.compiles, he]; rfl
      rw [hidle, if_neg Bool.false_ne_true, s.act_departure he]
      exact h.congr rfl rfl
    · -- of the parts of a turn only the solve writes into the journal
      obtain ⟨_, _, heq⟩ := (s.monitor.record e).solve.2.dispatch_eq (s.monitor.record e).solve.1
      have hturn : s.recompiles (.event e) =
          (s.monitor.record e).cache.isStale (s.monitor.record e).topology.revision := by
        rw [Bool.not_eq_true] at he
        rw [recompiles, Action.compiles, he]
        rfl
      rw [hturn, s.act_turn he, heq]
      have hrecord : (s.monitor.record e).Keeps name clock compiled s.solutions := h.congr rfl rfl
      exact hrecord.solve.congr rfl rfl
  | setLane fork exit active =>
    have hidle : s.recompiles (.setLane fork exit active) = false := rfl
    rw [hidle, if_neg Bool.false_ne_true, act]
    split
    · exact h
    · rename_i hok
      obtain ⟨-, rfl⟩ := Monitor.setLane_eq_ok hok
      exact h.congr rfl rfl
  | geometry => exact h.refresh
  | solve => exact h.solve
  | dispatch number =>
    have hidle : s.recompiles (.dispatch number) = false := rfl
    rw [hidle, if_neg Bool.false_ne_true, act]
    split
    · exact h
    · rename_i solution _
      obtain ⟨_, _, heq⟩ := s.monitor.dispatch_eq solution
      rw [heq]
      exact h.congr rfl rfl

theorem keeps_run (h : s.monitor.Keeps name clock compiled s.solutions) (actions : List Action) :
    (s.run actions).monitor.Keeps name clock (s.lastCompiled compiled actions)
      (s.run actions).solutions := by
  induction actions generalizing s compiled with
  | nil => exact h
  | cons a actions ih => exact ih (keeps_act h a)

theorem plain_lastCompiled (hplain : ∀ b ∈ compiled.atoms, b.Plain) (actions : List Action) :
    ∀ b ∈ (s.lastCompiled compiled actions).atoms, b.Plain := by
  induction actions generalizing s compiled with
  | nil => exact hplain
  | cons a actions ih =>
    refine ih ?_
    split
    · exact fun _ ↦ Facts.plain_of_mem_compile
    · exact hplain

end Session

theorem Journal.storable_eq_files {j : Journal} (h : nameFits j.geometryName = true) :
    j.storable = j.files := by
  have hlog : nameFits j.logName = true := by
    simp only [nameFits, geometryName, logName, String.utf8ByteSize_append, decide_eq_true_iff]
      at h ⊢
    have hshorter : "Log.cl".utf8ByteSize ≤ "Geometry.cl".utf8ByteSize := by decide
    omega
  simp only [storable, files, List.filter_cons, h, hlog, if_true, List.filter_nil]

theorem Advisor.solves_of_make {oracle : Oracle} {cap : Nat} {a : Advisor}
    (h : make oracle cap = .ok a) : a.solves = 0 := by
  rw [make] at h
  split at h
  · cases h
    rfl
  · cases h

/-- **The files of a monitor are a faithful record, and both are programs.**  Whatever is called in
a session of a monitor that keeps files:

* one holds the facts about the crossing that were compiled last, below their hash, and the other
  one entry for each solve, in order;
* the solves are numbered from one on;
* the first file reads as one rule without a body for each fact; and
* if the rules can be read, then so can all programs in the log, and the log reads as their rules,
  one program after the other.  Only anonymous variables have other numbers there, and the rules
  stand on other lines. -/
theorem record_of_session {settings : Settings} {topology : Topology} {probe : Probe}
    {rules : String} {oracle : Oracle} {clock : Nat → Stamp} {m₀ : Monitor} {directory : String}
    (hmake : Monitor.make settings topology probe rules oracle clock = .ok m₀)
    (hdirectory : settings.artifactDir? = some directory) (actions : List Action) :
    let s := (Session.start m₀).run actions
    let compiled := (Session.start m₀).lastCompiled (.compile topology probe) actions
    ∃ j, s.monitor.journal? = some j ∧
      j.files = [(settings.name ++ "Geometry.cl", Journal.geometryText compiled),
        (settings.name ++ "Log.cl", Journal.logText clock s.solutions)] ∧
      (nameFits j.geometryName = true → j.storable = j.files) ∧
      s.solutions.map Solution.sequence = List.range' 1 s.solutions.length ∧
      parseProgram j.geometry = .ok (compiled.atoms.mapIdx fun k a ↦ Rule.ofAtom a (2 + k)) ∧
      ∀ rs, parseProgram rules = .ok rs →
        ∃ programs all,
          List.Forall₂ (fun x read ↦ parseProgram x.program.text = .ok read) s.solutions programs ∧
          parseProgram j.log = .ok all ∧
          all.map Rule.blank = programs.flatten.map Rule.blank ∧
          all.length = programs.flatten.length := by
  intro s compiled
  have hkeeps : s.monitor.Keeps settings.name clock compiled s.solutions := by
    refine Session.keeps_run ⟨?_, ?_, rfl⟩ actions
    · obtain ⟨_, _, -, -, rfl⟩ := Monitor.eq_of_make hmake
      exact congrArg (Option.map _) hdirectory
    · obtain ⟨_, advisor, -, hadvisor, rfl⟩ := Monitor.eq_of_make hmake
      exact Advisor.solves_of_make hadvisor
  have hplain : ∀ a ∈ compiled.atoms, a.Plain :=
    Session.plain_lastCompiled (fun _ ↦ Facts.plain_of_mem_compile) actions
  refine ⟨_, hkeeps.journal, rfl, Journal.storable_eq_files, hkeeps.numbered,
    Journal.parseProgram_geometryText hplain, fun rs hrs ↦ ?_⟩
  obtain ⟨hfresh, rfl, -, -⟩ := Monitor.of_make hmake
  have hread : ∀ x ∈ s.solutions, ∃ read, parseProgram x.program.text = .ok read := by
    intro x hx
    obtain ⟨m, ⟨hsound, hsetup⟩, rfl⟩ :=
      (Session.within_run (Monitor.stable_follows m₀) hfresh.follows actions).solutions x hx
    exact ⟨_, hsound.parseProgram_of_ok (hsetup.rules ▸ hrs)⟩
  choose! read hread using hread
  have hprograms : List.Forall₂ (fun x read ↦ parseProgram x.program.text = .ok read) s.solutions
      (s.solutions.map read) :=
    List.forall₂_map_right_iff.2 (List.forall₂_same.2 hread)
  obtain ⟨all, hall, hblank⟩ := (Journal.holds_logText clock hprograms).exists_parseProgram
  refine ⟨_, all, hprograms, hall, hblank, ?_⟩
  rw [← List.length_map, hblank, List.length_map]

/-- The standard settings, with files. -/
def Settings.journaled : Settings := { standard with artifactDir? := some "out" }

/-- A rule with two anonymous variables. -/
def busyRule : Rule :=
  ⟨some ⟨"busy", [.var "F"]⟩, [.pos ⟨"entersForkAtTime", [.var "_1", .var "F", .var "_2"]⟩], 1⟩

/-- After two solves of a program with two anonymous variables, the log is one with four. -/
theorem record_of_session_twice :
    ∃ m₀ j, Monitor.make .journaled .empty (fun _ _ ↦ false) "busy(F) :- entersForkAtTime(_,F,_)."
        (.stratified standardBudget) (fun _ ↦ .ofText "") = .ok m₀ ∧
      ((Session.start m₀).run [.solve, .solve]).monitor.journal? = some j ∧
      ((Session.start m₀).run [.solve, .solve]).solutions.map Solution.sequence = [1, 2] ∧
      ∃ all, parseProgram j.log = .ok all ∧
        all.map Rule.blank = [busyRule.blank, busyRule.blank] := by
  obtain ⟨m₀, hmake⟩ : ∃ m₀, Monitor.make .journaled .empty (fun _ _ ↦ false)
      "busy(F) :- entersForkAtTime(_,F,_)." (.stratified standardBudget) (fun _ ↦ .ofText "") =
        .ok m₀ := by
    have hcheck : Settings.journaled.check = .ok .standard := Monitor.check_standard
    rw [Monitor.make, hcheck]
    exact ⟨_, rfl⟩
  obtain ⟨j, hjournal, -, -, hnumbered, -, hlog⟩ := record_of_session hmake rfl [.solve, .solve]
  obtain ⟨programs, all, hprograms, hall, hblank, -⟩ := hlog [busyRule] (by decide +kernel)
  refine ⟨m₀, j, hmake, hjournal, hnumbered, all, hall, ?_⟩
  -- both programs consist of the rule alone, since nothing is known and the crossing is empty
  have hread : parseProgram (Program.assemble Ledger.empty.text
      (Facts.compile .empty fun _ _ ↦ false).text "busy(F) :- entersForkAtTime(_,F,_).").text =
        .ok [busyRule] := by
    decide +kernel
  obtain ⟨_, _, -, -, rfl⟩ := Monitor.eq_of_make hmake
  rcases hprograms with _ | ⟨hfirst, hrest⟩
  rcases hrest with _ | ⟨hsecond, hnil⟩
  cases hnil
  cases hread.symm.trans hfirst
  cases hread.symm.trans hsecond
  exact hblank

end RightOfWay
