import RightOfWay.Proofs.Arbitration.Session
import RightOfWay.Proofs.Logic.Listing

/-!
# Which models are kept

An oracle finds models in any order, and some of them perhaps more than once.

* What is kept of a list of models is what sorting it, dropping repetitions and cutting it off leave
  (`Outcome.leastModels_eq`).  So the least models are kept, in order
  (`Outcome.isLeast_leastModels`), and they depend on the members of the list only
  (`Outcome.canonicalize_congr`).
* An outcome in canonical form stays as it is, and a smaller cap undoes a larger one
  (`Outcome.canonicalize_canonicalize_of_le`).
* Replies are alike if they find the same models.  A monitor does the same whichever of two oracles
  it asks, if their replies are alike: in one turn (`Monitor.handle_withOracle`), and so in a whole
  session (`Session.run_withOracle`).
-/

set_option autoImplicit false

namespace RightOfWay

namespace Outcome

variable {cap : Nat} {ms ns : List Model}

/-! ## The least models -/

/-- The kept models are members of the list, as many as the cap allows, in order, and before all
members that are not kept. -/
structure IsLeast (cap : Nat) (ms kept : List Model) : Prop where
  ordered : kept.Pairwise fun m n ↦ compare m n = .lt
  length_eq : kept.length = min cap ms.dedup.length
  mem : ∀ m ∈ kept, m ∈ ms
  lt_of_notMem : ∀ m ∈ ms, m ∉ kept → ∀ k ∈ kept, compare k m = .lt

/-- **The least models are had by sorting**: of equal neighbours one is left, and what goes beyond
the cap is cut off. -/
theorem leastModels_eq (cap : Nat) (ms : List Model) :
    leastModels cap ms = (sortedMembers ms).take cap := by
  rw [leastModels, toList_ofList_eq_sortedMembers]

theorem isLeast_leastModels (cap : Nat) (ms : List Model) :
    IsLeast cap ms (leastModels cap ms) := by
  rw [leastModels_eq]
  have hincreasing := increasing_sortedMembers ms
  refine ⟨List.Pairwise.take hincreasing, ?_,
    fun m hm ↦ mem_sortedMembers.1 (List.mem_of_mem_take hm), fun m hm hkept k hk ↦ ?_⟩
  · rw [List.length_take, length_sortedMembers]
  · rw [← mem_sortedMembers, ← List.take_append_drop cap (sortedMembers ms)] at hm
    rw [← List.take_append_drop cap (sortedMembers ms)] at hincreasing
    exact (List.pairwise_append.1 hincreasing).2.2 k hk m
      ((List.mem_append.1 hm).resolve_left hkept)

/-- The first of the least models is the least one of all. -/
theorem IsLeast.isLE_head {least : Model} {rest : List Model} (h : IsLeast cap ms (least :: rest)) :
    ∀ m ∈ ms, (compare least m).isLE = true := by
  intro m hm
  by_cases hkept : m ∈ least :: rest
  · rcases List.mem_cons.1 hkept with rfl | hrest
    · exact Std.ReflCmp.isLE_rfl
    · rw [(List.pairwise_cons.1 h.ordered).1 m hrest]
      rfl
  · rw [h.lt_of_notMem m hm hkept least List.mem_cons_self]
    rfl

theorem leastModels_congr (cap : Nat) (h : ∀ m, m ∈ ms ↔ m ∈ ns) :
    leastModels cap ms = leastModels cap ns := by
  rw [leastModels, leastModels, ofList_congr h]

@[simp] theorem leastModels_nil (cap : Nat) : leastModels cap [] = [] :=
  List.eq_nil_iff_forall_not_mem.2 fun m hm ↦
    List.not_mem_nil ((isLeast_leastModels cap []).mem m hm)

theorem leastModels_eq_nil_iff (hcap : 0 < cap) : leastModels cap ms = [] ↔ ms = [] := by
  rw [← List.length_eq_zero_iff, (isLeast_leastModels cap ms).length_eq, ← List.dedup_eq_nil,
    ← List.length_eq_zero_iff]
  omega

/-- The least models of the least models are what the smaller cap leaves of them. -/
theorem leastModels_leastModels (cap cap' : Nat) (ms : List Model) :
    leastModels cap (leastModels cap' ms) = leastModels (min cap cap') ms := by
  rw [leastModels, toList_ofList (isLeast_leastModels cap' ms).ordered, leastModels, List.take_take]
  rfl

/-! ## Canonical form -/

theorem canonicalize_models_of_ne_nil (h : leastModels cap ms ≠ []) :
    canonicalize cap (.models ms) = .models (leastModels cap ms) := by
  rw [canonicalize]
  cases hkept : leastModels cap ms with
  | nil => exact absurd hkept h
  | cons least rest => rfl

theorem canonicalize_models_of_eq_nil (h : leastModels cap ms = []) :
    canonicalize cap (.models ms) = .undetermined := by
  rw [canonicalize, h]

theorem canonicalize_congr (cap : Nat) (h : ∀ m, m ∈ ms ↔ m ∈ ns) :
    canonicalize cap (.models ms) = canonicalize cap (.models ns) := by
  rw [canonicalize, canonicalize, leastModels_congr cap h]

/-- **A smaller cap undoes a larger one.** -/
theorem canonicalize_canonicalize_of_le {cap' : Nat} (h : cap ≤ cap') (o : Outcome) :
    canonicalize cap (canonicalize cap' o) = canonicalize cap o := by
  cases o with
  | models ms =>
    have hleast := leastModels_leastModels cap cap' ms
    rw [min_eq_left h] at hleast
    by_cases hkept : leastModels cap' ms = []
    · have hnone : leastModels cap ms = [] := by
        rw [← hleast, hkept, leastModels_nil]
      rw [canonicalize_models_of_eq_nil hkept, canonicalize_models_of_eq_nil hnone]
      rfl
    · rw [canonicalize_models_of_ne_nil hkept, canonicalize, canonicalize, hleast]
  | unsatisfiable | undetermined | failure => rfl

/-- What is kept of a list of models under a cap. -/
theorem exists_canonicalize_models (hcap : 0 < cap) (hms : ms ≠ []) :
    ∃ least rest, canonicalize cap (.models ms) = .models (least :: rest) ∧
      IsLeast cap ms (least :: rest) := by
  have hne := mt (leastModels_eq_nil_iff hcap).1 hms
  have hleast := isLeast_leastModels cap ms
  rw [canonicalize_models_of_ne_nil hne]
  cases hkept : leastModels cap ms with
  | nil => exact absurd hkept hne
  | cons least rest => exact ⟨least, rest, rfl, hkept ▸ hleast⟩

theorem canonicalize_models_eq_undetermined_iff (hcap : 0 < cap) :
    canonicalize cap (.models ms) = .undetermined ↔ ms = [] := by
  rw [← leastModels_eq_nil_iff hcap]
  refine ⟨fun h ↦ ?_, canonicalize_models_of_eq_nil⟩
  by_contra hne
  rw [canonicalize_models_of_ne_nil hne] at h
  cases h

end Outcome

/-! ## Two oracles -/

/-- Replies that are the same, or that find the same models, in any order and with any
repetitions. -/
inductive Reply.Alike : Reply → Reply → Prop
  | models {ms ns : List Model} (h : ∀ m, m ∈ ms ↔ m ∈ ns) :
      Alike (.outcome (.models ms)) (.outcome (.models ns))
  | refl (r : Reply) : Alike r r

theorem Reply.Alike.canonicalize_toOutcome {r r' : Reply} (h : r.Alike r') (cap : Nat) :
    r.toOutcome.canonicalize cap = r'.toOutcome.canonicalize cap := by
  cases h with
  | models h => exact Outcome.canonicalize_congr cap h
  | refl => rfl

/-- What the advisor gets from its oracle if it puts the program to it now. -/
def Advisor.reply (a : Advisor) (p : Program) : Reply := a.oracle.reply a.solves p a.cap

/-- **Replies that are alike make the same answer.** -/
theorem Advisor.answer_congr {a a' : Advisor} {p : Program} (hcap : a'.cap = a.cap)
    (h : (a.reply p).Alike (a'.reply p)) : a'.answer p = a.answer p := by
  show (a'.reply p).toOutcome.canonicalize a'.cap = (a.reply p).toOutcome.canonicalize a.cap
  rw [hcap, h.canonicalize_toOutcome]

namespace Monitor

/-- The reply that a solve gets now. -/
def reply (m : Monitor) : Reply := m.advisor.reply m.program

variable {m : Monitor} {o o' : Oracle}

theorem solve_withOracle (h : (m.withOracle o).reply.Alike (m.withOracle o').reply) :
    (m.withOracle o').solve =
      ((m.withOracle o).solve.1, (m.withOracle o).solve.2.withOracle o') := by
  have hanswer : (m.withOracle o').advisor.answer m.program =
      (m.withOracle o).advisor.answer m.program := Advisor.answer_congr rfl h
  show (Solution.mk _ _ ((m.withOracle o').advisor.answer m.program), _) =
    (Solution.mk _ _ ((m.withOracle o).advisor.answer m.program), _)
  rw [hanswer]
  rfl

theorem dispatch_withOracle (m : Monitor) (o : Oracle) (s : Solution) :
    (m.withOracle o).dispatch s = ((m.dispatch s).1, (m.dispatch s).2.withOracle o) := by
  rw [dispatch, dispatch]
  cases s.outcome.selected <;> rfl

/-- **A turn is the same with either oracle**, if their replies are alike. -/
theorem handle_withOracle {e : Event}
    (h : ((m.withOracle o).record e).reply.Alike ((m.withOracle o').record e).reply) :
    (m.withOracle o').handle e =
      (((m.withOracle o).handle e).1, ((m.withOracle o).handle e).2.withOracle o') := by
  by_cases he : e.isDeparture = true
  · rw [handle_departure _ he, handle_departure _ he]
    rfl
  · have hrecord : ∀ o, (m.withOracle o).record e = (m.record e).withOracle o := fun _ ↦ rfl
    rw [handle_turn _ he, handle_turn _ he]
    rw [hrecord, hrecord] at h
    simp only [hrecord, solve_withOracle h, dispatch_withOracle]

theorem setLane_withOracle (m : Monitor) (o : Oracle) (fork : ForkId) (exit : ExitId)
    (active : Bool) : (m.withOracle o).setLane fork exit active =
      (m.setLane fork exit active).map fun (change, m) ↦ (change, m.withOracle o) := by
  rw [setLane, setLane]
  show (m.topology.setLane fork exit active).map _ = _
  cases m.topology.setLane fork exit active <;> rfl

end Monitor

/-- The oracles reply alike to all programs. -/
def Oracle.Alike (o o' : Oracle) : Prop :=
  ∀ request program cap, (o.reply request program cap).Alike (o'.reply request program cap)

theorem Oracle.Alike.refl (o : Oracle) : o.Alike o := fun _ _ _ ↦ .refl _

namespace Session

/-- The session with another oracle to ask from now on. -/
def withOracle (s : Session) (o : Oracle) : Session := { s with monitor := s.monitor.withOracle o }

variable {o o' : Oracle}

@[simp] theorem monitor_withOracle (s : Session) (o : Oracle) :
    (s.withOracle o).monitor = s.monitor.withOracle o := rfl

@[simp] theorem solutions_withOracle (s : Session) (o : Oracle) :
    (s.withOracle o).solutions = s.solutions := rfl

theorem act_withOracle (h : o.Alike o') (s : Session) (a : Action) :
    (s.withOracle o').act a = ((s.withOracle o).act a).withOracle o' := by
  cases a with
  | attach | geometry => rfl
  | event e =>
    rw [act, act, monitor_withOracle, monitor_withOracle, Monitor.handle_withOracle (h _ _ _)]
    rcases (s.monitor.withOracle o).handle e with ⟨_ | cycle, m⟩ <;> rfl
  | setLane fork exit active =>
    rw [act, act, monitor_withOracle, monitor_withOracle, Monitor.setLane_withOracle,
      Monitor.setLane_withOracle]
    cases s.monitor.setLane fork exit active <;> rfl
  | solve =>
    rw [act, act, monitor_withOracle, monitor_withOracle, Monitor.solve_withOracle (h _ _ _)]
    rfl
  | dispatch number =>
    rw [act, act, solutions_withOracle, solutions_withOracle]
    cases s.solutions[number]? with
    | none => rfl
    | some solution =>
      dsimp only
      rw [monitor_withOracle, monitor_withOracle, Monitor.dispatch_withOracle,
        Monitor.dispatch_withOracle]
      rfl

/-- **A session is the same with either oracle**, if all their replies are alike. -/
theorem run_withOracle (h : o.Alike o') (s : Session) (actions : List Action) :
    (s.withOracle o').run actions = ((s.withOracle o).run actions).withOracle o' := by
  induction actions generalizing s with
  | nil => rfl
  | cons a actions ih =>
    have hself := act_withOracle (.refl o) s a
    rw [run_cons, run_cons, act_withOracle h, ih, ← hself]

end Session

/-! ## Summary -/

open Outcome

/-- **What an advisor answers depends on the set of models that its oracle finds, and on nothing
else.**  Lists of models with the same members have the same canonical form, whatever their order
and their repetitions, so advisors with the same cap whose oracles find the same models give the
same answer.  A monitor then does the same: it comes to the same solution and the same dispatch in
the turn of an event, and to the same state in a whole session.

The canonical form of a list of models is no answer if and only if the list is empty.  Otherwise it
consists of the least models, as many as the cap allows, in order; and the one that is selected is
the least of all.  Canonical form is kept by canonical form with the same cap, and has no trace of a
larger cap that went before. -/
theorem answer_of_members :
    (∀ (cap : Nat) (ms ns : List Model), (∀ m, m ∈ ms ↔ m ∈ ns) →
      canonicalize cap (.models ms) = canonicalize cap (.models ns)) ∧
    (∀ (a a' : Advisor) (p : Program), a'.cap = a.cap → (a.reply p).Alike (a'.reply p) →
      a'.answer p = a.answer p) ∧
    (∀ (m : Monitor) (o o' : Oracle) (e : Event),
      ((m.withOracle o).record e).reply.Alike ((m.withOracle o').record e).reply →
      (m.withOracle o').handle e =
        (((m.withOracle o).handle e).1, ((m.withOracle o).handle e).2.withOracle o')) ∧
    (∀ (s : Session) (o o' : Oracle), o.Alike o' → ∀ actions : List Action,
      (s.withOracle o').run actions = ((s.withOracle o).run actions).withOracle o') ∧
    (∀ (cap : Nat) (ms : List Model), 0 < cap →
      (canonicalize cap (.models ms) = .undetermined ↔ ms = []) ∧
      (ms ≠ [] → ∃ least rest, canonicalize cap (.models ms) = .models (least :: rest) ∧
        IsLeast cap ms (least :: rest) ∧
        (canonicalize cap (.models ms)).selected = some least ∧
        least ∈ ms ∧ ∀ m ∈ ms, (compare least m).isLE = true)) ∧
    (∀ (cap : Nat) (o : Outcome), canonicalize cap (canonicalize cap o) = canonicalize cap o) ∧
    ∀ (cap cap' : Nat) (o : Outcome), cap ≤ cap' →
      canonicalize cap (canonicalize cap' o) = canonicalize cap o := by
  refine ⟨fun cap _ _ ↦ canonicalize_congr cap, fun _ _ _ ↦ Advisor.answer_congr,
    fun _ _ _ _ ↦ Monitor.handle_withOracle, fun s _ _ h ↦ s.run_withOracle h,
    fun cap ms hcap ↦ ⟨canonicalize_models_eq_undetermined_iff hcap, fun hms ↦ ?_⟩,
    fun _ o ↦ canonicalize_canonicalize_of_le le_rfl o,
    fun _ _ o h ↦ canonicalize_canonicalize_of_le h o⟩
  obtain ⟨least, rest, heq, hleast⟩ := exists_canonicalize_models hcap hms
  exact ⟨least, rest, heq, hleast, by rw [heq]; rfl, hleast.mem least List.mem_cons_self,
    hleast.isLE_head⟩

/-- The oracle that finds these models for every program. -/
def Oracle.finding (ms : List Model) : Oracle := ⟨"found", fun _ _ _ ↦ .outcome (.models ms)⟩

/-- The model with one verdict on a car. -/
def oneVerdict (predicate : String) : Model := .ofAtoms [⟨predicate, [.symbol "v_car"]⟩]

theorem toList_oneVerdict (predicate : String) :
    (oneVerdict predicate).toList = [⟨predicate, [.symbol "v_car"]⟩] :=
  toList_ofList (List.pairwise_singleton _ _)

/-- One oracle finds that the car must stop, that it may go, and again that it must stop; another
one finds the same two models the other way round, each of them once. -/
theorem answer_of_members_twice :
    ∃ m₀, Monitor.make .standard .empty (fun _ _ ↦ false) "" (.finding []) (fun _ ↦ .ofText "") =
        .ok m₀ ∧
      let stop := oneVerdict stopPredicate
      let go := oneVerdict goPredicate
      let run o := ((Session.start m₀).withOracle o).run [.solve, .dispatch 0]
      (run (.finding [stop, go, stop])).solutions.map (·.outcome.selected) = [some go] ∧
        run (.finding [go, stop]) =
          (run (.finding [stop, go, stop])).withOracle (.finding [go, stop]) := by
  obtain ⟨m₀, hmake⟩ := Monitor.exists_make_standard .empty (fun _ _ ↦ false) "" (.finding [])
    fun _ ↦ .ofText ""
  obtain ⟨-, -, -, hrun, hkept, -⟩ := answer_of_members
  refine ⟨m₀, hmake, ?_, hrun _ _ _ (fun _ _ _ ↦ .models (by simp [or_comm])) _⟩
  obtain ⟨least, rest, -, -, hselected, hmem, hleast⟩ :=
    (hkept m₀.advisor.cap [oneVerdict stopPredicate, oneVerdict goPredicate,
      oneVerdict stopPredicate] m₀.advisor.cap_pos).2 (List.cons_ne_nil _ _)
  have hlt : compare (oneVerdict stopPredicate) (oneVerdict goPredicate) = .gt := by
    show compare (oneVerdict stopPredicate).toList (oneVerdict goPredicate).toList = .gt
    rw [toList_oneVerdict, toList_oneVerdict]
    decide +kernel
  have hne : least ≠ oneVerdict stopPredicate := by
    rintro rfl
    have hle := hleast (oneVerdict goPredicate) (by simp)
    rw [hlt] at hle
    cases hle
  have hgo : least = oneVerdict goPredicate := by simpa [hne] using hmem
  rw [hgo] at hselected
  exact congrArg ([·]) hselected

end RightOfWay
