import Mathlib.Data.List.Nodup
import RightOfWay.Proofs.Arbitration.Calls

/-!
# What becomes of verdicts

* A verdict is about a vehicle if it has the constant of the vehicle as its only argument
  (`Model.mem_subjects`), and there is one at most for each predicate (`Model.nodup_subjects`).
* `Controls.carryOut_cases` says what one order can come to, and what a whole dispatch does follows
  order by order.  It keeps the vehicles with handles (`Controls.contains_dispatch`).  What it
  reports as issued is what the handles of these vehicles accept (`Controls.accepted_dispatch`).
* Verdicts on a vehicle without a handle are skipped one by one
  (`Controls.filter_skipped_dispatch`).
-/

set_option autoImplicit false

namespace RightOfWay

/-- The vehicle that a skipped verdict is about. -/
def Skip.vehicle? : Skip → Option VehicleId
  | unresolved v _ => some v
  | refused v _ => some v
  | malformed _ => none
  | conflicting v => some v

/-! ## Subjects -/

theorem subject?_verdict (predicate : String) (v : VehicleId) :
    subject? ⟨predicate, [.symbol v.constant]⟩ = some v :=
  v.ofConstant?_constant

theorem eq_of_subject? {a : Atom} {v : VehicleId} (harity : a.arity = 1) (h : subject? a = some v) :
    a = ⟨a.predicate, [.symbol v.constant]⟩ := by
  obtain ⟨predicate, args⟩ := a
  obtain ⟨t, rfl⟩ := List.length_eq_one_iff.1 harity
  cases t with
  | int n => cases h
  | symbol text =>
    rw [Ident.constant_of_ofConstant? h]

namespace Model

variable {m : Model} {predicate : String} {v : VehicleId}

/-- The verdicts of a predicate are about the vehicles whose constants they have. -/
theorem mem_subjects :
    v ∈ m.subjects predicate ↔ ⟨predicate, [.symbol v.constant]⟩ ∈ m := by
  rw [subjects, List.mem_filterMap]
  constructor
  · rintro ⟨a, ha, hv⟩
    obtain ⟨hmem, hpredicate, harity⟩ := mem_withPredicate.1 ha
    rwa [eq_of_subject? harity hv, hpredicate] at hmem
  · exact fun h ↦ ⟨_, mem_withPredicate.2 ⟨h, rfl, rfl⟩, subject?_verdict predicate v⟩

/-- No vehicle has two verdicts of one predicate. -/
theorem nodup_subjects (m : Model) (predicate : String) : (m.subjects predicate).Nodup := by
  have hatoms : (m.verdicts predicate).Nodup :=
    (m.distinct_toList.imp Std.ReflCmp.ne_of_cmp_ne_eq).filter _
  rw [subjects, List.Nodup, List.pairwise_filterMap]
  refine hatoms.imp_of_mem fun {a b} ha hb hne v hv w hw heq ↦ hne ?_
  obtain ⟨-, hpredicate, harity⟩ := mem_withPredicate.1 ha
  obtain ⟨-, hpredicate', harity'⟩ := mem_withPredicate.1 hb
  rw [eq_of_subject? harity hv, eq_of_subject? harity' hw, hpredicate, hpredicate', heq]

theorem filter_subjects (m : Model) (predicate : String) (v : VehicleId) :
    (m.subjects predicate).filter (· == v) =
      if ⟨predicate, [.symbol v.constant]⟩ ∈ m then [v] else [] := by
  rw [List.filter_beq]
  by_cases h : (⟨predicate, [.symbol v.constant]⟩ : Atom) ∈ m
  · rw [if_pos h, List.count_eq_one_of_mem (m.nodup_subjects predicate) (mem_subjects.2 h)]
    rfl
  · rw [if_neg h, List.count_eq_zero_of_not_mem (mt mem_subjects.1 h)]
    rfl

/-- The orders for one vehicle. -/
theorem filter_plan (m : Model) (v : VehicleId) :
    m.plan.filter (·.1 == v) =
      (if ⟨stopPredicate, [.symbol v.constant]⟩ ∈ m then [(v, .stop)] else []) ++
        if ⟨goPredicate, [.symbol v.constant]⟩ ∈ m then [(v, .go)] else [] := by
  have hmap : ∀ (predicate : String) (command : Command),
      ((m.subjects predicate).map (·, command)).filter (·.1 == v) =
        if ⟨predicate, [.symbol v.constant]⟩ ∈ m then [(v, command)] else [] := by
    intro predicate command
    rw [List.filter_map]
    show ((m.subjects predicate).filter (· == v)).map (·, command) = _
    rw [filter_subjects]
    split <;> rfl
  rw [plan, List.filter_append, stopped, hmap, hmap]

end Model

/-! ## Orders -/

namespace Controls

variable {stopped : List VehicleId} {report : Dispatch} {c : Controls} {v : VehicleId}
  {command : Command}

theorem contains_eq_isSome (c : Controls) (v : VehicleId) : c.contains v = c.handles[v]?.isSome :=
  Std.ExtTreeMap.contains_eq_isSome_getElem?

theorem mem_vehicles : v ∈ c.vehicles ↔ c.contains v = true :=
  Std.ExtTreeMap.mem_keys.trans Std.ExtTreeMap.contains_iff_mem.symm

theorem contains_attach (c : Controls) (v w : VehicleId) (h : Handle) :
    (c.attach v h).contains w = if v = w then true else c.contains w := by
  simp only [contains_eq_isSome, attach, Std.ExtTreeMap.getElem?_insert,
    Std.LawfulEqCmp.compare_eq_iff_eq]
  split <;> rfl

theorem contains_detach (c : Controls) (v w : VehicleId) :
    (c.detach v).contains w = if v = w then false else c.contains w := by
  simp only [contains_eq_isSome, detach, Std.ExtTreeMap.getElem?_erase,
    Std.LawfulEqCmp.compare_eq_iff_eq]
  split <;> rfl

/-- What an order can come to. -/
theorem carryOut_cases (stopped : List VehicleId) (report : Dispatch) (c : Controls)
    (v : VehicleId) (command : Command) :
    ((command = .go ∧ v ∈ stopped) ∧
        carryOut stopped (report, c) (v, command) = (report.addSkip (.conflicting v), c)) ∨
      (¬ (command = .go ∧ v ∈ stopped) ∧ c.contains v = false ∧
        carryOut stopped (report, c) (v, command) = (report.addSkip (.unresolved v command), c)) ∨
      ∃ handle, c.handles[v]? = some handle ∧
        (handle.takes command = true ∧
            carryOut stopped (report, c) (v, command) = (report.addIssued v command,
              ⟨c.handles.insert v (handle.offer command), c.accepted ++ [(v, command)]⟩) ∨
          handle.takes command = false ∧
            carryOut stopped (report, c) (v, command) = (report.addSkip (.refused v command),
              ⟨c.handles.insert v (handle.offer command), c.accepted⟩)) := by
  by_cases hconflict : command = .go ∧ v ∈ stopped
  · exact .inl ⟨hconflict, if_pos hconflict⟩
  rw [carryOut, if_neg hconflict, takes?, contains_eq_isSome]
  cases hhandle : c.handles[v]? with
  | none => exact .inr (.inl ⟨hconflict, rfl, rfl⟩)
  | some handle =>
    refine .inr (.inr ⟨handle, rfl, ?_⟩)
    simp only [Option.map_some, offer, hhandle]
    cases handle.takes command with
    | true => exact .inl ⟨rfl, rfl⟩
    | false => exact .inr ⟨rfl, rfl⟩

/-- A handle that is called is kept. -/
theorem contains_insert_handle {handle handle' : Handle} (h : c.handles[v]? = some handle)
    (w : VehicleId) : (c.handles.insert v handle').contains w = c.contains w := by
  refine (c.contains_attach v w handle').trans ?_
  by_cases hw : v = w
  · rw [if_pos hw, ← hw, contains_eq_isSome, h]
    rfl
  · rw [if_neg hw]

theorem contains_carryOut (stopped : List VehicleId) (state : Dispatch × Controls)
    (order : VehicleId × Command) (w : VehicleId) :
    (carryOut stopped state order).2.contains w = state.2.contains w := by
  obtain ⟨report, c⟩ := state
  obtain ⟨v, command⟩ := order
  rcases carryOut_cases stopped report c v command with ⟨-, heq⟩ | ⟨-, -, heq⟩ | ⟨handle, h, heq⟩
  · rw [heq]
  · rw [heq]
  · rcases heq with ⟨-, heq⟩ | ⟨-, heq⟩ <;> rw [heq] <;> exact contains_insert_handle h w

theorem contains_foldl_carryOut (stopped : List VehicleId) (orders : List (VehicleId × Command))
    (state : Dispatch × Controls) (w : VehicleId) :
    (orders.foldl (carryOut stopped) state).2.contains w = state.2.contains w := by
  induction orders generalizing state with
  | nil => rfl
  | cons order orders ih => rw [List.foldl_cons, ih, contains_carryOut]

/-- Orders add the same commands to the report and to what the handles have accepted. -/
theorem exists_issued (stopped : List VehicleId) (orders : List (VehicleId × Command))
    (state : Dispatch × Controls) :
    ∃ new : List (VehicleId × Command),
      (orders.foldl (carryOut stopped) state).1.issued = state.1.issued ++ new ∧
        (orders.foldl (carryOut stopped) state).2.accepted = state.2.accepted ++ new ∧
        ∀ order ∈ new, state.2.contains order.1 = true := by
  induction orders generalizing state with
  | nil => exact ⟨[], (List.append_nil _).symm, (List.append_nil _).symm, nofun⟩
  | cons order orders ih =>
    obtain ⟨report, c⟩ := state
    obtain ⟨v, command⟩ := order
    obtain ⟨new, hissued, haccepted, hnew⟩ := ih (carryOut stopped (report, c) (v, command))
    simp only [contains_carryOut] at hnew
    rw [List.foldl_cons, hissued, haccepted]
    rcases carryOut_cases stopped report c v command with
      ⟨-, heq⟩ | ⟨-, -, heq⟩ | ⟨handle, h, ⟨-, heq⟩ | ⟨-, heq⟩⟩ <;> rw [heq]
    · exact ⟨new, rfl, rfl, hnew⟩
    · exact ⟨new, rfl, rfl, hnew⟩
    · refine ⟨(v, command) :: new, List.append_assoc _ _ _, List.append_assoc _ _ _, ?_⟩
      refine List.forall_mem_cons.2 ⟨?_, hnew⟩
      rw [contains_eq_isSome, h]
      rfl
    · exact ⟨new, rfl, rfl, hnew⟩

/-- How an order for a vehicle that has no handle is skipped. -/
def skipFor (stopped : List VehicleId) : VehicleId × Command → Skip
  | (v, .stop) => .unresolved v .stop
  | (v, .go) => if stopped.contains v then .conflicting v else .unresolved v .go

@[simp] theorem vehicle?_skipFor (stopped : List VehicleId) (v : VehicleId) (command : Command) :
    (skipFor stopped (v, command)).vehicle? = some v := by
  cases command with
  | stop => rfl
  | go =>
    rw [skipFor]
    split <;> rfl

theorem skipFor_of_conflict (h : command = .go ∧ v ∈ stopped) :
    skipFor stopped (v, command) = .conflicting v := by
  obtain ⟨rfl, hv⟩ := h
  exact if_pos (List.contains_iff_mem.2 hv)

theorem skipFor_of_not_conflict (h : ¬ (command = .go ∧ v ∈ stopped)) :
    skipFor stopped (v, command) = .unresolved v command := by
  cases command with
  | stop => rfl
  | go => exact if_neg fun hv ↦ h ⟨rfl, List.contains_iff_mem.1 hv⟩

/-- An order for a vehicle without a handle is skipped. -/
theorem carryOut_of_not_contains (stopped : List VehicleId) (report : Dispatch) (command : Command)
    (h : c.contains v = false) : carryOut stopped (report, c) (v, command) =
      (report.addSkip (skipFor stopped (v, command)), c) := by
  rcases carryOut_cases stopped report c v command with
    ⟨hconflict, heq⟩ | ⟨hconflict, -, heq⟩ | ⟨handle, hhandle, -⟩
  · rw [heq, skipFor_of_conflict hconflict]
  · rw [heq, skipFor_of_not_conflict hconflict]
  · rw [contains_eq_isSome, hhandle] at h
    cases h

/-- What comes of an order is about its own vehicle. -/
theorem filter_skipped_carryOut_of_ne (stopped : List VehicleId) (report : Dispatch) (c : Controls)
    (command : Command) {w : VehicleId} (hw : w ≠ v) :
    ((carryOut stopped (report, c) (w, command)).1.skipped.filter fun s ↦ s.vehicle? = some v) =
      report.skipped.filter fun s ↦ s.vehicle? = some v := by
  rcases carryOut_cases stopped report c w command with
    ⟨-, heq⟩ | ⟨-, -, heq⟩ | ⟨handle, -, ⟨-, heq⟩ | ⟨-, heq⟩⟩ <;> rw [heq] <;>
    simp [Dispatch.addIssued, Dispatch.addSkip, Skip.vehicle?, hw]

theorem filter_skipped_foldl_carryOut (stopped : List VehicleId)
    (orders : List (VehicleId × Command)) {state : Dispatch × Controls}
    (h : state.2.contains v = false) :
    ((orders.foldl (carryOut stopped) state).1.skipped.filter fun s ↦ s.vehicle? = some v) =
      (state.1.skipped.filter fun s ↦ s.vehicle? = some v) ++
        (orders.filter (·.1 == v)).map (skipFor stopped) := by
  induction orders generalizing state with
  | nil => exact (List.append_nil _).symm
  | cons order orders ih =>
    have hcontains := contains_carryOut stopped state order v
    rw [List.foldl_cons, ih (hcontains.trans h)]
    obtain ⟨report, c⟩ := state
    obtain ⟨w, command⟩ := order
    by_cases hw : w = v
    · subst hw
      rw [carryOut_of_not_contains stopped report command h]
      simp [Dispatch.addSkip]
    · rw [filter_skipped_carryOut_of_ne stopped report c command hw]
      simp [hw]

/-! ## Dispatch -/

/-- No handle comes and none goes. -/
theorem contains_dispatch (c : Controls) (m : Model) (v : VehicleId) :
    (c.dispatch m).2.contains v = c.contains v :=
  contains_foldl_carryOut _ _ _ _

/-- What is reported as issued is what the handles accept, and they are handles that there are. -/
theorem accepted_dispatch (c : Controls) (m : Model) :
    (c.dispatch m).2.accepted = c.accepted ++ (c.dispatch m).1.issued ∧
      ∀ order ∈ (c.dispatch m).1.issued, c.contains order.1 = true := by
  obtain ⟨new, hissued, haccepted, hnew⟩ :=
    exists_issued m.stopped m.plan (⟨[], m.malformedVerdicts.map .malformed⟩, c)
  obtain rfl : (c.dispatch m).1.issued = new := hissued
  exact ⟨haccepted, hnew⟩

/-- **Every verdict on a vehicle without a handle is skipped**: one that says stop because there is
no handle, and one that says go for the same reason, or because the vehicle is to stop as well. -/
theorem filter_skipped_dispatch (c : Controls) (m : Model) (h : c.contains v = false) :
    ((c.dispatch m).1.skipped.filter fun s ↦ s.vehicle? = some v) =
      (if ⟨stopPredicate, [.symbol v.constant]⟩ ∈ m then [.unresolved v .stop] else []) ++
        if ⟨goPredicate, [.symbol v.constant]⟩ ∈ m then
          [if ⟨stopPredicate, [.symbol v.constant]⟩ ∈ m then .conflicting v
            else .unresolved v .go]
        else [] := by
  have hmalformed : ((m.malformedVerdicts.map Skip.malformed).filter fun s ↦
      s.vehicle? = some v) = [] := by
    simp [List.filter_eq_nil_iff, Skip.vehicle?]
  have hstopped : v ∈ m.stopped ↔ ⟨stopPredicate, [.symbol v.constant]⟩ ∈ m := Model.mem_subjects
  rw [dispatch, filter_skipped_foldl_carryOut _ _ h, hmalformed, List.nil_append,
    Model.filter_plan, List.map_append]
  congr 1
  · split
    · simp [skipFor]
    · rfl
  · split
    · simp [skipFor, hstopped]
    · rfl

end Controls

/-! ## Solutions -/

theorem Dispatch.mem_issued_of_commandFor {d : Dispatch} {v : VehicleId} {command : Command}
    (h : d.commandFor v = some command) : (v, command) ∈ d.issued := by
  obtain ⟨⟨w, command⟩, hfind, rfl⟩ := Option.map_eq_some_iff.1 h
  have hw := List.find?_some hfind
  obtain rfl : w = v := eq_of_beq hw
  exact List.mem_reverse.1 (List.mem_of_find?_eq_some hfind)

namespace Monitor

variable (m : Monitor) (s : Solution)

theorem contains_dispatch (v : VehicleId) :
    (m.dispatch s).2.controls.contains v = m.controls.contains v := by
  cases h : s.outcome.selected with
  | none => rw [m.dispatch_of_selected_eq_none h]
  | some model =>
    rw [m.dispatch_of_selected h]
    exact m.controls.contains_dispatch model v

theorem accepted_dispatch :
    (m.dispatch s).2.controls.accepted = m.controls.accepted ++ (m.dispatch s).1.issued ∧
      ∀ order ∈ (m.dispatch s).1.issued, m.controls.contains order.1 = true := by
  cases h : s.outcome.selected with
  | none =>
    rw [m.dispatch_of_selected_eq_none h]
    exact ⟨(List.append_nil _).symm, nofun⟩
  | some model =>
    rw [m.dispatch_of_selected h]
    exact m.controls.accepted_dispatch model

theorem getElem?_foldl_insert (orders : List (VehicleId × Command))
    (commands : Std.ExtTreeMap VehicleId Command) (v : VehicleId) :
    (orders.foldl (fun cs (v, c) ↦ cs.insert v c) commands)[v]? =
      ((orders.reverse.find? (·.1 == v)).map (·.2)).or commands[v]? := by
  induction orders generalizing commands with
  | nil => rfl
  | cons order orders ih =>
    rw [List.foldl_cons, ih, List.reverse_cons, List.find?_append, Std.ExtTreeMap.getElem?_insert]
    cases orders.reverse.find? (·.1 == v) with
    | some last => rfl
    | none =>
      by_cases hv : order.1 = v
      · simp [hv]
      · simp [hv]

/-- The command that is issued last to a vehicle replaces the one that is kept. -/
theorem lastCommands_dispatch (v : VehicleId) :
    (m.dispatch s).2.lastCommands[v]? =
      ((m.dispatch s).1.commandFor v).or m.lastCommands[v]? := by
  cases h : s.outcome.selected with
  | none =>
    rw [m.dispatch_of_selected_eq_none h]
    rfl
  | some model =>
    rw [m.dispatch_of_selected h]
    exact getElem?_foldl_insert _ _ v

end Monitor
end RightOfWay
