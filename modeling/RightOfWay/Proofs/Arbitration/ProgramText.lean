import Mathlib.Control.Monad.Basic
import RightOfWay.Oracle.Stratified
import RightOfWay.Proofs.Arbitration.Geometry
import RightOfWay.Proofs.Arbitration.History
import RightOfWay.Proofs.Rules.Sections

/-!
# The program of a monitor

Identifiers, signals and ticks make plain atoms, and so whatever a monitor has seen, the facts in
its programs are read as they were meant (`Monitor.Sound.plain_ledger`,
`Monitor.Sound.plain_geometry`).  Reading a program of a monitor therefore gives its facts, one by
one, and behind them what the rules give on their own (`Monitor.Sound.parseProgram_assemble`).
-/

set_option autoImplicit false

namespace RightOfWay

/-! ## Plain atoms -/

theorem isWordChar_of_isNameChar {c : Char} (h : isNameChar c = true) : isWordChar c = true := by
  rw [isNameChar] at h
  rw [isWordChar, h, Bool.true_or]

theorem Ident.isConstant_constant {r : Role} (i : Ident r) : IsConstant i.constant := by
  have htext := i.toList_constant
  refine ⟨fun c hc ↦ ?_, fun c hc ↦ ?_, fun hnil ↦ ?_, fun hnot ↦ ?_⟩
  · rw [htext] at hc
    cases r <;> cases hc <;> rfl
  · rw [htext, List.mem_append] at hc
    rcases hc with hc | hc
    · cases r <;> exact List.all_eq_true.1 (by decide) c hc
    · exact isWordChar_of_isNameChar (i.isName.2 c hc)
  · rw [htext] at hnil
    cases r <;> cases hnil
  · rw [hnot] at htext
    have hsecond := congrArg (·[1]?) htext
    cases r <;> cases hsecond

theorem Signal.isConstant_constant (s : Signal) : IsConstant s.constant := by
  cases s <;> decide

theorem Event.plain_fact {predicate : String} (h : IsConstant predicate) (v : VehicleId)
    {constants : List String} (hconstants : ∀ c ∈ constants, IsConstant c) (tick : Tick) :
    (fact predicate v constants tick).Plain := by
  refine ⟨h, fun t ht ↦ ?_⟩
  rw [fact, List.mem_append, List.mem_cons, List.mem_singleton, List.mem_map] at ht
  rcases ht with (rfl | ⟨c, hc, rfl⟩) | rfl
  · exact v.isConstant_constant
  · exact hconstants c hc
  · trivial

/-- Events make plain atoms. -/
theorem Event.plain_of_mem_facts {e : Event} {tick : Tick} {a : Atom} (h : a ∈ e.facts tick) :
    a.Plain := by
  have hident : ∀ {r : Role} (i : Ident r), ∀ c ∈ [i.constant], IsConstant c := by
    intro r i c hc
    rw [List.mem_singleton.1 hc]
    exact i.isConstant_constant
  cases e with
  | arrival v f t signal? =>
    simp only [facts, List.mem_cons, List.mem_map] at h
    rcases h with rfl | ⟨s, _, rfl⟩
    · exact plain_fact (by decide) v (hident f) tick
    · refine plain_fact (by decide) v (List.forall_mem_cons.2 ⟨?_, hident f⟩) tick
      exact s.isConstant_constant
  | entrance v f t =>
    rw [List.mem_singleton.1 h]
    exact plain_fact (by decide) v (hident f) tick
  | enterLane v l t =>
    rw [List.mem_singleton.1 h]
    exact plain_fact (by decide) v (hident l) tick
  | exitLane v l t =>
    rw [List.mem_singleton.1 h]
    exact plain_fact (by decide) v (hident l) tick
  | departure v => exact absurd h List.not_mem_nil

theorem Facts.plain_relate {predicate : String} (h : IsConstant predicate)
    {constants : List String} (hconstants : ∀ c ∈ constants, IsConstant c) :
    (relate predicate constants).Plain := by
  refine ⟨h, fun t ht ↦ ?_⟩
  obtain ⟨c, hc, rfl⟩ := List.mem_map.1 ht
  exact hconstants c hc

/-- Crossings make plain atoms. -/
theorem Facts.plain_of_mem_compile {t : Topology} {probe : Probe} {a : Atom}
    (h : a ∈ (compile t probe).atoms) : a.Plain := by
  rcases cases_of_mem_compile h with
    ⟨f, g, rfl⟩ | ⟨l, f, e, rfl⟩ | ⟨l, s, rfl⟩ | ⟨l, m, rfl⟩
  all_goals
    refine plain_relate (by decide) ?_
    simp only [List.forall_mem_cons, List.not_mem_nil, false_imp_iff, implies_true,
      Ident.isConstant_constant, Signal.isConstant_constant, and_self]

/-! ## Every state -/

namespace Monitor

/-- What holds of a monitor in every state that it reaches: its facts come from events of their
vehicles, and its cache is right. -/
def Sound (m : Monitor) : Prop := m.Recorded ∧ m.CacheValid

theorem stable_sound : Stable Sound := stable_recorded.and stable_cacheValid

theorem Fresh.sound {m : Monitor} (h : m.Fresh) : m.Sound := ⟨h.recorded, h.cacheValid⟩

/-- What holds of a monitor that was set up like `m₀`, whatever happens to it. -/
def Follows (m₀ m : Monitor) : Prop := m.Sound ∧ SameSetup m₀ m

theorem stable_follows (m₀ : Monitor) : Stable (Follows m₀) :=
  stable_sound.and (stable_sameSetup m₀)

theorem Fresh.follows {m : Monitor} (h : m.Fresh) : m.Follows m := ⟨h.sound, rfl, rfl, rfl⟩

theorem Sound.plain_ledger {m : Monitor} (h : m.Sound) : ∀ a ∈ m.ledger.facts, a.Plain := by
  intro a ha
  obtain ⟨v, hv⟩ := Ledger.mem_facts.1 ha
  obtain ⟨e, tick, -, hmem⟩ := h.1 v a hv
  exact Event.plain_of_mem_facts hmem

theorem Sound.plain_geometry {m : Monitor} (h : m.Sound) : ∀ a ∈ m.geometry.atoms, a.Plain := by
  intro a ha
  rw [h.2.geometry_eq] at ha
  exact Facts.plain_of_mem_compile ha

/-- The facts that stand in front of the rules in a program. -/
def facts (m : Monitor) : List Atom := m.ledger.facts ++ m.geometry.atoms

theorem Sound.parseProgram_assemble {m : Monitor} (h : m.Sound) (rules : String) :
    parseProgram (Program.assemble m.ledger.text m.geometry.text rules).text =
      behindFacts m.facts (parseProgram rules) :=
  RightOfWay.parseProgram_assemble h.plain_ledger h.plain_geometry rules

end Monitor

/-- **Facts can never break, absorb or alter rules.**  In every state that a monitor reaches, and
for every rule text: if the text can be read, then reading it behind the facts of the monitor gives
one rule without a body for each fact, on the line of its number, and behind them the rules of the
text, further down by the number of facts.  If the text cannot be read, then neither can it behind
the facts, for the same reason and on the line that is further down by the number of facts. -/
theorem parseProgram_of_session {settings : Settings} {topology : Topology} {probe : Probe}
    {rules : String} {oracle : Oracle} {clock : Nat → Stamp} {m₀ : Monitor}
    (hmake : Monitor.make settings topology probe rules oracle clock = .ok m₀)
    (actions : List Action) (r : String) :
    let m := ((Session.start m₀).run actions).monitor
    let facts := m.ledger.facts ++ m.geometry.atoms
    let read := parseProgram (Program.assemble m.ledger.text m.geometry.text r).text
    (∀ rs, parseProgram r = .ok rs →
      read = .ok ((facts.mapIdx fun k a ↦ Rule.ofAtom a (k + 1)) ++
        rs.map fun s ↦ { s with line := s.line + facts.length })) ∧
      (∀ e, parseProgram r = .error (.unreadable e) →
        read = .error (.unreadable { e with line := e.line + facts.length })) ∧
      ∀ line name, parseProgram r = .error (.unsafeRule line name) →
        read = .error (.unsafeRule (line + facts.length) name) := by
  have hsound := (Session.within_run Monitor.stable_sound (Monitor.of_make hmake).1.sound
    actions).monitor
  have hread := hsound.parseProgram_assemble r
  refine ⟨fun rs hrs ↦ ?_, fun e he ↦ ?_, fun line name he ↦ ?_⟩
  · rw [hread, hrs]
    rfl
  · rw [hread, he]
    rfl
  · rw [hread, he]
    rfl

/-- A vehicle has entered, and the rules are a single one. -/
theorem parseProgram_of_session_entrance :
    ∃ m₀, Monitor.make .standard .empty (fun _ _ ↦ false) "" (.stratified standardBudget)
        (fun _ ↦ .ofText "") = .ok m₀ ∧
      let m := ((Session.start m₀).run
        [.event (.entrance ⟨"car", by decide +kernel⟩ ⟨"north", by decide +kernel⟩ 1)]).monitor
      let facts := m.ledger.facts ++ m.geometry.atoms
      parseProgram (Program.assemble m.ledger.text m.geometry.text
          "busy(F) :- entersForkAtTime(_,F,_).").text =
        .ok ((facts.mapIdx fun k a ↦ Rule.ofAtom a (k + 1)) ++
          [⟨some ⟨"busy", [.var "F"]⟩,
            [.pos ⟨"entersForkAtTime", [.var "_1", .var "F", .var "_2"]⟩], 1 + facts.length⟩]) := by
  obtain ⟨m₀, hmake⟩ := Monitor.exists_make_standard .empty (fun _ _ ↦ false) ""
    (.stratified standardBudget) fun _ ↦ .ofText ""
  exact ⟨m₀, hmake, (parseProgram_of_session hmake _ _).1 [⟨some ⟨"busy", [.var "F"]⟩,
    [.pos ⟨"entersForkAtTime", [.var "_1", .var "F", .var "_2"]⟩], 1⟩] (by decide +kernel)⟩

end RightOfWay
