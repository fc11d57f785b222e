import RightOfWay.Proofs.Arbitration.Verdicts

/-!
# The report of a dispatch

The report accounts for every verdict of the model, once.

* `Controls.fate` says what becomes of a verdict, from the model and the handles as they were before
  the dispatch.  The entries of the report are the fates of the verdicts, in some order
  (`Controls.entries_dispatch`).
* An order of a model is a verdict on a vehicle that no other verdict overrules.  No vehicle gets
  two of them (`Model.nodup_orders`), so what comes of one does not depend on the others: a dispatch
  asks the handles as they were before it (`Controls.foldl_carryOut`).
* The handles are called with the orders and with nothing else (`Controls.handles_dispatch`), and
  the calls can be read off the report (`Controls.calls_dispatch`).  What a handle has been offered
  grows by these calls (`Controls.offered_dispatch`).
-/

set_option autoImplicit false

namespace RightOfWay

/-! ## Entries -/

/-- What a report says about one verdict. -/
inductive Entry where
  | issued (order : VehicleId × Command)
  | skipped (skip : Skip)

namespace Entry

/-- What a report says about an order, by the reply of the handle; without a handle there is no
reply. -/
def ofReply (order : VehicleId × Command) : Option Bool → Entry
  | none => .skipped (.unresolved order.1 order.2)
  | some true => .issued order
  | some false => .skipped (.refused order.1 order.2)

theorem ofReply_inj {order order' : VehicleId × Command} {reply reply' : Option Bool} :
    ofReply order reply = ofReply order' reply' ↔ order = order' ∧ reply = reply' := by
  obtain ⟨v, command⟩ := order
  obtain ⟨v', command'⟩ := order'
  rcases reply with _ | _ | _ <;> rcases reply' with _ | _ | _ <;> simp [ofReply]

theorem ofReply_ne_conflicting (order : VehicleId × Command) (reply : Option Bool)
    (v : VehicleId) : ofReply order reply ≠ .skipped (.conflicting v) := by
  rcases reply with _ | _ | _ <;> simp [ofReply]

theorem ofReply_ne_malformed (order : VehicleId × Command) (reply : Option Bool) (a : Atom) :
    ofReply order reply ≠ .skipped (.malformed a) := by
  rcases reply with _ | _ | _ <;> simp [ofReply]

/-- The command that was issued. -/
def issued? : Entry → Option (VehicleId × Command)
  | issued order => some order
  | skipped _ => none

/-- The command that a handle was called with, accepted or not. -/
def call? : Entry → Option (VehicleId × Command)
  | issued order => some order
  | skipped (.refused v command) => some (v, command)
  | skipped _ => none

end Entry

namespace Dispatch

variable (d : Dispatch)

/-- All that a report says. -/
def entries : List Entry := d.issued.map .issued ++ d.skipped.map .skipped

/-- The commands that handles were called with. -/
def calls : List (VehicleId × Command) := d.entries.filterMap Entry.call?

/-- The commands that the handle of one vehicle was called with. -/
def callsTo (v : VehicleId) : List Command := (d.calls.filter (·.1 == v)).map (·.2)

/-- The report with one more entry. -/
def add : Entry → Dispatch
  | .issued (v, command) => d.addIssued v command
  | .skipped skip => d.addSkip skip

theorem entries_add (e : Entry) : (d.add e).entries.Perm (d.entries ++ [e]) := by
  cases e with
  | issued order =>
    show (List.map Entry.issued (d.issued ++ [order]) ++ d.skipped.map Entry.skipped).Perm _
    rw [List.map_append, entries, List.append_assoc, List.append_assoc]
    exact List.perm_append_comm.append_left _
  | skipped skip =>
    show (d.issued.map Entry.issued ++ List.map Entry.skipped (d.skipped ++ [skip])).Perm _
    rw [List.map_append, ← List.append_assoc]
    rfl

theorem entries_foldl_add (d : Dispatch) (es : List Entry) :
    (es.foldl add d).entries.Perm (d.entries ++ es) := by
  induction es generalizing d with
  | nil => rw [List.append_nil]; rfl
  | cons e es ih =>
    rw [List.foldl_cons, List.append_cons]
    exact (ih (d.add e)).trans ((d.entries_add e).append_right es)

theorem issued_foldl_add (d : Dispatch) (es : List Entry) :
    (es.foldl add d).issued = d.issued ++ es.filterMap Entry.issued? := by
  induction es generalizing d with
  | nil => exact (List.append_nil _).symm
  | cons e es ih =>
    rw [List.foldl_cons, ih]
    cases e with
    | issued order => exact List.append_assoc _ _ _
    | skipped skip => rfl

theorem mem_issued_iff {d : Dispatch} {order : VehicleId × Command} :
    order ∈ d.issued ↔ .issued order ∈ d.entries := by
  simp [entries]

theorem mem_skipped_iff {d : Dispatch} {skip : Skip} :
    skip ∈ d.skipped ↔ .skipped skip ∈ d.entries := by
  simp [entries]

theorem mem_callsTo_iff {d : Dispatch} {v : VehicleId} {command : Command} :
    command ∈ d.callsTo v ↔ (v, command) ∈ d.issued ∨ .refused v command ∈ d.skipped := by
  have hcalls : (v, command) ∈ d.calls ↔
      (v, command) ∈ d.issued ∨ .refused v command ∈ d.skipped := by
    rw [calls, List.mem_filterMap, mem_issued_iff, mem_skipped_iff]
    constructor
    · rintro ⟨e, he, hcall⟩
      cases e with
      | issued order =>
        cases hcall
        exact .inl he
      | skipped skip =>
        cases skip <;> cases hcall
        exact .inr he
    · rintro (he | he)
      · exact ⟨_, he, rfl⟩
      · exact ⟨_, he, rfl⟩
  rw [← hcalls]
  simp [callsTo]

end Dispatch

/-! ## Orders -/

/-- The order is overruled: it says go, and the vehicle must stop. -/
def Overruled (stopped : List VehicleId) (order : VehicleId × Command) : Prop :=
  order.2 = .go ∧ order.1 ∈ stopped

instance (stopped : List VehicleId) : DecidablePred (Overruled stopped) := fun _ ↦
  inferInstanceAs (Decidable (_ ∧ _))

/-- The predicate of the verdicts that ask for the command. -/
def Command.predicate : Command → String
  | stop => stopPredicate
  | go => goPredicate

namespace Model

variable {m : Model} {v : VehicleId} {command : Command}

/-- The model has the verdict that asks the vehicle for the command. -/
def Says (m : Model) (command : Command) (v : VehicleId) : Prop :=
  ⟨command.predicate, [.symbol v.constant]⟩ ∈ m

/-- The model orders the vehicle to obey the command: it says so, and does not say stop as well if
the command is to go. -/
def Orders (m : Model) (v : VehicleId) (command : Command) : Prop :=
  m.Says command v ∧ ¬ (command = .go ∧ m.Says .stop v)

/-- The planned commands that are not overruled. -/
def orders (m : Model) : List (VehicleId × Command) :=
  m.plan.filter fun order ↦ ¬ Overruled m.stopped order

theorem mem_stopped_iff : v ∈ m.stopped ↔ m.Says .stop v := mem_subjects

theorem mem_plan_iff : (v, command) ∈ m.plan ↔ m.Says command v := by
  cases command with
  | stop => simp [plan, stopped, mem_subjects, Says, Command.predicate]
  | go => simp [plan, mem_subjects, Says, Command.predicate]

theorem orders_iff :
    m.Orders v command ↔ m.Says command v ∧ ¬ Overruled m.stopped (v, command) := by
  rw [Orders, Overruled, mem_stopped_iff]

/-- A verdict is malformed if it does not have the constant of a vehicle as its argument. -/
theorem mem_malformed_iff {a : Atom} {predicate : String} : a ∈ m.malformed predicate ↔
    a ∈ m.verdicts predicate ∧ ∀ v : VehicleId, a.args ≠ [.symbol v.constant] := by
  rw [malformed, List.mem_filter, Option.isNone_iff_eq_none]
  refine and_congr_right fun ha ↦ ⟨fun hnone v hargs ↦ ?_, fun hargs ↦ ?_⟩
  · have hsome := subject?_verdict a.predicate v
    rw [← hargs, hnone] at hsome
    cases hsome
  · cases hsubject : subject? a with
    | none => rfl
    | some v =>
      have heq := eq_of_subject? (mem_withPredicate.1 ha).2.2 hsubject
      exact absurd (congrArg Atom.args heq) (hargs v)

theorem mem_malformedVerdicts_iff {a : Atom} : a ∈ m.malformedVerdicts ↔
    (a ∈ m.verdicts stopPredicate ∨ a ∈ m.verdicts goPredicate) ∧
      ∀ v : VehicleId, a.args ≠ [.symbol v.constant] := by
  rw [malformedVerdicts, List.mem_append, mem_malformed_iff, mem_malformed_iff, or_and_right]

theorem orders_eq (m : Model) : m.orders = m.stopped.map (·, .stop) ++
    ((m.subjects goPredicate).filter fun v ↦ v ∉ m.stopped).map (·, .go) := by
  rw [orders, plan, List.filter_append, List.filter_map, List.filter_map]
  congr 2
  · exact List.filter_eq_self.2 fun v _ ↦ by simp [Overruled]
  · exact List.filter_congr fun v _ ↦ by simp [Overruled]

/-- **No vehicle gets two orders.** -/
theorem nodup_orders (m : Model) : (m.orders.map Prod.fst).Nodup := by
  have hvehicles : m.orders.map Prod.fst =
      m.stopped ++ (m.subjects goPredicate).filter fun v ↦ v ∉ m.stopped := by
    rw [orders_eq, List.map_append, List.map_map, List.map_map]
    exact congrArg₂ _ (List.map_id _) (List.map_id _)
  rw [hvehicles]
  refine (m.nodup_subjects stopPredicate).append ((m.nodup_subjects goPredicate).filter _) ?_
  exact fun v hstop hgo ↦ of_decide_eq_true (List.mem_filter.1 hgo).2 hstop

end Model
/-! ## Fates -/

namespace Controls

variable {c : Controls} {stopped : List VehicleId} {orders : List (VehicleId × Command)}

/-- What comes of a planned command. -/
def outcome (c : Controls) (stopped : List VehicleId) (order : VehicleId × Command) : Entry :=
  if Overruled stopped order then .skipped (.conflicting order.1)
  else .ofReply order (c.takes? order.1 order.2)

theorem outcome_eq_conflicting_iff {order : VehicleId × Command} {v : VehicleId} :
    c.outcome stopped order = .skipped (.conflicting v) ↔
      Overruled stopped order ∧ order.1 = v := by
  by_cases h : Overruled stopped order
  · simp [outcome, h]
  · simp [outcome, h, Entry.ofReply_ne_conflicting]

theorem outcome_eq_ofReply_iff {order order' : VehicleId × Command} {reply : Option Bool} :
    c.outcome stopped order = .ofReply order' reply ↔
      ¬ Overruled stopped order ∧ order = order' ∧ c.takes? order.1 order.2 = reply := by
  by_cases h : Overruled stopped order
  · simp [outcome, h, (Entry.ofReply_ne_conflicting _ _ _).symm]
  · simp [outcome, h, Entry.ofReply_inj]

theorem outcome_ne_malformed (order : VehicleId × Command) (a : Atom) :
    c.outcome stopped order ≠ .skipped (.malformed a) := by
  by_cases h : Overruled stopped order
  · simp [outcome, h]
  · simp [outcome, h, Entry.ofReply_ne_malformed]

/-- What becomes of a verdict that asks for the command. -/
def fate (c : Controls) (m : Model) (command : Command) (a : Atom) : Entry :=
  match subject? a with
  | none => .skipped (.malformed a)
  | some v => c.outcome m.stopped (v, command)

/-- The controls after these commands have been offered one after the other. -/
def offerAll (c : Controls) (orders : List (VehicleId × Command)) : Controls :=
  orders.foldl (fun c order ↦ c.offer order.1 order.2) c

/-- **A step of a dispatch adds one entry**, and offers the command if it is not overruled. -/
theorem carryOut_eq (stopped : List VehicleId) (report : Dispatch) (c : Controls)
    (order : VehicleId × Command) :
    carryOut stopped (report, c) order = (report.add (c.outcome stopped order),
      if Overruled stopped order then c else c.offer order.1 order.2) := by
  obtain ⟨v, command⟩ := order
  by_cases h : Overruled stopped (v, command)
  · rw [outcome, if_pos h, if_pos h]
    exact if_pos h
  · rw [outcome, if_neg h, if_neg h]
    refine (if_neg h).trans ?_
    rw [takes?, offer]
    cases c.handles[v]? with
    | none => rfl
    | some handle =>
      dsimp only [Option.map_some]
      cases handle.takes command <;> rfl

/-- An offer changes the handle of its vehicle only. -/
theorem getElem?_offer (c : Controls) (v w : VehicleId) (command : Command) :
    (c.offer v command).handles[w]? =
      if v = w then c.handles[w]?.map (·.offer command) else c.handles[w]? := by
  rw [offer]
  by_cases hv : v = w
  · subst hv
    rw [if_pos rfl]
    cases hhandle : c.handles[v]? with
    | none => exact hhandle
    | some h => exact Std.ExtTreeMap.getElem?_insert_self
  · rw [if_neg hv]
    cases c.handles[v]? with
    | none => rfl
    | some h =>
      exact Std.ExtTreeMap.getElem?_insert.trans
        (if_neg fun heq ↦ hv (Std.LawfulEqCmp.eq_of_compare heq))

theorem outcome_offer {v : VehicleId} {order : VehicleId × Command} (command : Command)
    (h : ¬ Overruled stopped order → order.1 ≠ v) :
    (c.offer v command).outcome stopped order = c.outcome stopped order := by
  rw [outcome, outcome]
  by_cases hoverruled : Overruled stopped order
  · rw [if_pos hoverruled, if_pos hoverruled]
  · rw [if_neg hoverruled, if_neg hoverruled, takes?, takes?, getElem?_offer,
      if_neg (h hoverruled).symm]

/-- **What comes of planned commands can be asked beforehand**, if no vehicle gets two that are not
overruled: the entries are what comes of each with the handles as they are at first. -/
theorem foldl_carryOut (report : Dispatch) (c : Controls)
    (h : ((orders.filter fun order ↦ ¬ Overruled stopped order).map Prod.fst).Nodup) :
    orders.foldl (carryOut stopped) (report, c) =
      ((orders.map (c.outcome stopped)).foldl Dispatch.add report,
        c.offerAll (orders.filter fun order ↦ ¬ Overruled stopped order)) := by
  induction orders generalizing report c with
  | nil => rfl
  | cons order orders ih =>
    rw [List.foldl_cons, carryOut_eq, List.map_cons, List.foldl_cons]
    by_cases hoverruled : Overruled stopped order
    · rw [List.filter_cons_of_neg (by simpa using hoverruled)] at h ⊢
      rw [if_pos hoverruled, ih _ _ h]
    · rw [List.filter_cons_of_pos (by simpa using hoverruled)] at h ⊢
      rw [List.map_cons, List.nodup_cons] at h
      have hsame : orders.map ((c.offer order.1 order.2).outcome stopped) =
          orders.map (c.outcome stopped) :=
        List.map_congr_left fun other hother ↦ outcome_offer order.2 fun hfree heq ↦
          h.1 (heq ▸ List.mem_map_of_mem (List.mem_filter.2 ⟨hother, decide_eq_true hfree⟩))
      rw [if_neg hoverruled, ih _ _ h.2, hsame]
      rfl

theorem dispatch_eq (c : Controls) (m : Model) : c.dispatch m =
    ((m.plan.map (c.outcome m.stopped)).foldl Dispatch.add
      ⟨[], m.malformedVerdicts.map .malformed⟩, c.offerAll m.orders) :=
  foldl_carryOut _ c m.nodup_orders

/-! ## The report -/

/-- The fates of the verdicts of one predicate: those that are about no vehicle are malformed, and
the others ask for commands. -/
theorem map_fate_verdicts (c : Controls) (m : Model) (command : Command) :
    ((m.verdicts command.predicate).map (c.fate m command)).Perm
      (((m.malformed command.predicate).map fun a ↦ .skipped (.malformed a)) ++
        ((m.subjects command.predicate).map (·, command)).map (c.outcome m.stopped)) := by
  have hfate : ∀ as : List Atom, (as.map (c.fate m command)).Perm
      (((as.filter fun a ↦ (subject? a).isNone).map fun a ↦ .skipped (.malformed a)) ++
        ((as.filterMap subject?).map (·, command)).map (c.outcome m.stopped)) := by
    intro as
    induction as with
    | nil => exact .nil
    | cons a as ih =>
      cases hsubject : subject? a with
      | none => simpa [hsubject, fate] using ih
      | some v => simpa [hsubject, fate] using (ih.cons _).trans List.perm_middle.symm
  exact hfate _

/-- The malformed verdicts are reported, and what comes of the planned commands. -/
theorem perm_entries (c : Controls) (m : Model) :
    (c.dispatch m).1.entries.Perm ((m.malformedVerdicts.map fun a ↦ .skipped (.malformed a)) ++
      m.plan.map (c.outcome m.stopped)) := by
  have hmalformed : (Dispatch.mk [] (m.malformedVerdicts.map .malformed)).entries =
      m.malformedVerdicts.map fun a ↦ .skipped (.malformed a) := by
    rw [Dispatch.entries, List.map_map]
    rfl
  rw [dispatch_eq, ← hmalformed]
  exact Dispatch.entries_foldl_add _ _

/-- **The entries of a report are the fates of the verdicts.** -/
theorem entries_dispatch (c : Controls) (m : Model) :
    (c.dispatch m).1.entries.Perm
      ((m.verdicts stopPredicate).map (c.fate m .stop) ++
        (m.verdicts goPredicate).map (c.fate m .go)) := by
  refine (c.perm_entries m).trans ?_
  rw [Model.malformedVerdicts, Model.plan, List.map_append, List.map_append, List.append_assoc]
  refine ((List.perm_append_comm_assoc _ _ _).append_left _).trans ?_
  rw [← List.append_assoc]
  exact ((c.map_fate_verdicts m .stop).append (c.map_fate_verdicts m .go)).symm

theorem mem_entries_dispatch {m : Model} {e : Entry} : e ∈ (c.dispatch m).1.entries ↔
    (∃ a ∈ m.malformedVerdicts, .skipped (.malformed a) = e) ∨
      ∃ v command, m.Says command v ∧ c.outcome m.stopped (v, command) = e := by
  rw [(c.perm_entries m).mem_iff, List.mem_append, List.mem_map, List.mem_map, Prod.exists]
  simp only [Model.mem_plan_iff]

/-- **An order gets the reply of the handle of its vehicle**, and nothing else gets one. -/
theorem ofReply_mem_entries {m : Model} {v : VehicleId} {command : Command} {reply : Option Bool} :
    .ofReply (v, command) reply ∈ (c.dispatch m).1.entries ↔
      m.Orders v command ∧ c.takes? v command = reply := by
  rw [mem_entries_dispatch, Model.orders_iff]
  constructor
  · rintro (⟨a, -, heq⟩ | ⟨w, command', hverdict, heq⟩)
    · exact absurd heq.symm (Entry.ofReply_ne_malformed _ _ _)
    · obtain ⟨hfree, ⟨⟩, hreply⟩ := outcome_eq_ofReply_iff.1 heq
      exact ⟨⟨hverdict, hfree⟩, hreply⟩
  · rintro ⟨⟨hverdict, hfree⟩, hreply⟩
    exact .inr ⟨v, command, hverdict, outcome_eq_ofReply_iff.2 ⟨hfree, rfl, hreply⟩⟩

theorem conflicting_mem_skipped {m : Model} {v : VehicleId} :
    .conflicting v ∈ (c.dispatch m).1.skipped ↔ m.Says .stop v ∧ m.Says .go v := by
  rw [Dispatch.mem_skipped_iff, mem_entries_dispatch]
  constructor
  · rintro (⟨a, -, ⟨⟩⟩ | ⟨w, command, hverdict, heq⟩)
    obtain ⟨⟨rfl, hstop⟩, rfl⟩ := outcome_eq_conflicting_iff.1 heq
    exact ⟨Model.mem_stopped_iff.1 hstop, hverdict⟩
  · rintro ⟨hstop, hgo⟩
    exact .inr ⟨v, .go, hgo,
      outcome_eq_conflicting_iff.2 ⟨⟨rfl, Model.mem_stopped_iff.2 hstop⟩, rfl⟩⟩

theorem malformed_mem_skipped {m : Model} {a : Atom} :
    .malformed a ∈ (c.dispatch m).1.skipped ↔
      (a ∈ m.verdicts stopPredicate ∨ a ∈ m.verdicts goPredicate) ∧
        ∀ v : VehicleId, a.args ≠ [.symbol v.constant] := by
  rw [← Model.mem_malformedVerdicts_iff, Dispatch.mem_skipped_iff, mem_entries_dispatch]
  constructor
  · rintro (⟨a, ha, ⟨⟩⟩ | ⟨w, command, -, heq⟩)
    · exact ha
    · exact absurd heq (outcome_ne_malformed _ _)
  · exact fun ha ↦ .inl ⟨a, ha, rfl⟩

/-! ## Calls -/

/-- What a report says about orders that is read off the replies. -/
theorem filterMap_outcome {f : Entry → Option (VehicleId × Command)} {p : Option Bool → Bool}
    (hconflicting : ∀ v, f (.skipped (.conflicting v)) = none)
    (hreply : ∀ order reply, f (.ofReply order reply) = if p reply then some order else none)
    (c : Controls) (stopped : List VehicleId) (orders : List (VehicleId × Command)) :
    (orders.map (c.outcome stopped)).filterMap f =
      (orders.filter fun order ↦ ¬ Overruled stopped order).filter fun order ↦
        p (c.takes? order.1 order.2) := by
  induction orders with
  | nil => rfl
  | cons order orders ih =>
    rw [List.map_cons]
    by_cases hoverruled : Overruled stopped order
    · have hnone : f (c.outcome stopped order) = none := by
        rw [outcome, if_pos hoverruled, hconflicting]
      rw [List.filterMap_cons_none hnone, ih, List.filter_cons_of_neg (by simpa using hoverruled)]
    · have hsome : f (c.outcome stopped order) =
          if p (c.takes? order.1 order.2) then some order else none := by
        rw [outcome, if_neg hoverruled, hreply]
      rw [List.filterMap_cons, hsome, ih, List.filter_cons_of_pos (by simpa using hoverruled),
        List.filter_cons]
      cases p (c.takes? order.1 order.2) <;> rfl

theorem issued_dispatch (c : Controls) (m : Model) :
    (c.dispatch m).1.issued = m.orders.filter fun order ↦
      c.takes? order.1 order.2 == some true := by
  rw [dispatch_eq, Dispatch.issued_foldl_add, List.nil_append]
  refine filterMap_outcome (p := (· == some true)) (fun _ ↦ rfl) (fun order reply ↦ ?_) c _ _
  rcases reply with _ | _ | _ <;> rfl

theorem calls_dispatch (c : Controls) (m : Model) :
    (c.dispatch m).1.calls.Perm (m.orders.filter fun order ↦
      (c.takes? order.1 order.2).isSome) := by
  have hcalls : ((m.plan.map (c.outcome m.stopped)).filterMap Entry.call?) =
      m.orders.filter fun order ↦ (c.takes? order.1 order.2).isSome := by
    refine filterMap_outcome (p := Option.isSome) (fun _ ↦ rfl) (fun order reply ↦ ?_) c _ _
    rcases reply with _ | _ | _ <;> rfl
  have hmalformed : (m.malformedVerdicts.map fun a ↦ .skipped (.malformed a)).filterMap
      Entry.call? = [] := by
    simp [List.filterMap_map, Entry.call?]
  have hperm := (c.perm_entries m).filterMap Entry.call?
  rwa [List.filterMap_append, hmalformed, hcalls] at hperm

theorem getElem?_offerAll (c : Controls) (orders : List (VehicleId × Command)) (v : VehicleId) :
    (c.offerAll orders).handles[v]? = c.handles[v]?.map fun h ↦
      ((orders.filter (·.1 == v)).map (·.2)).foldl Handle.offer h := by
  induction orders generalizing c with
  | nil => exact (congrFun Option.map_id _).symm
  | cons order orders ih =>
    refine (ih (c.offer order.1 order.2)).trans ?_
    rw [getElem?_offer]
    by_cases h : order.1 = v
    · rw [if_pos h, Option.map_map, List.filter_cons_of_pos (by simpa using h)]
      rfl
    · rw [if_neg h, List.filter_cons_of_neg (by simpa using h)]

theorem nodup_calls (c : Controls) (m : Model) : ((c.dispatch m).1.calls.map Prod.fst).Nodup :=
  (((c.calls_dispatch m).map Prod.fst).nodup_iff).2
    (m.nodup_orders.sublist (List.filter_sublist.map Prod.fst))

theorem length_callsTo_le_one (c : Controls) (m : Model) (v : VehicleId) :
    ((c.dispatch m).1.callsTo v).length ≤ 1 := by
  have hcount := List.nodup_iff_count_le_one.1 (c.nodup_calls m) v
  rw [List.count, List.countP_map, List.countP_eq_length_filter] at hcount
  rw [Dispatch.callsTo, List.length_map]
  exact hcount

/-- **Handles are called as the report says**, and no other handle changes. -/
theorem handles_dispatch (c : Controls) (m : Model) (v : VehicleId) :
    (c.dispatch m).2.handles[v]? = c.handles[v]?.map fun h ↦
      ((c.dispatch m).1.callsTo v).foldl Handle.offer h := by
  rw [congrArg Prod.snd (c.dispatch_eq m), getElem?_offerAll]
  cases hhandle : c.handles[v]? with
  | none => rw [Option.map_none, Option.map_none]
  | some h =>
    have hsame : (m.orders.filter fun order ↦ (c.takes? order.1 order.2).isSome).filter
        (·.1 == v) = m.orders.filter (·.1 == v) := by
      rw [List.filter_filter]
      refine List.filter_congr fun order _ ↦ ?_
      by_cases hv : order.1 = v
      · simp [takes?, hv, hhandle]
      · simp [hv]
    have hperm : ((c.dispatch m).1.callsTo v).Perm ((m.orders.filter (·.1 == v)).map Prod.snd) :=
      hsame ▸ ((c.calls_dispatch m).filter _).map _
    have hlength := c.length_callsTo_le_one m v
    -- lists of one element at most that are the same up to order are the same
    rcases hcalls : (c.dispatch m).1.callsTo v with _ | ⟨command, _ | _⟩
    · rw [hcalls, List.nil_perm] at hperm
      rw [hperm]
    · rw [hcalls, List.singleton_perm] at hperm
      rw [← hperm]
    · simp [hcalls] at hlength

/-- What a handle has been offered grows by what the report says, and how it takes commands does not
change. -/
theorem offered_dispatch (c : Controls) (m : Model) (v : VehicleId) :
    (c.dispatch m).2.handles[v]? = c.handles[v]?.map fun h ↦
      { h with offered := h.offered ++ (c.dispatch m).1.callsTo v } := by
  rw [handles_dispatch]
  exact congrArg (Option.map · c.handles[v]?) (funext fun h ↦ h.foldl_offer _)

end Controls

/-! ## Order -/

/-- Constants are ordered as the names are. -/
theorem Ident.compare_constant {r : Role} (i j : Ident r) :
    compare i.constant j.constant = compare i j := by
  have hlt : ∀ {i j : Ident r}, compare i j = .lt → compare i.constant j.constant = .lt := by
    intro i j h
    have htext : i.text < j.text := (compareOfLessAndEq_eq_lt).1 h
    refine compareOfLessAndEq_eq_lt.2 (String.lt_iff.2 ?_)
    rw [toList_constant, toList_constant]
    exact List.append_left_lt (String.lt_iff.1 htext)
  cases h : compare i j with
  | lt => exact hlt h
  | eq =>
    obtain rfl := Std.LawfulEqCmp.eq_of_compare h
    exact Std.ReflCmp.compare_self
  | gt => exact Std.OrientedCmp.gt_of_lt (hlt (Std.OrientedCmp.lt_of_gt h))

theorem Term.compare_symbol (a b : String) : compare (symbol a) (symbol b) = compare a b := by
  have hrank : compare (rank (symbol a)) (rank (symbol b)) = .eq := Std.ReflCmp.compare_self
  have hnumber : compare (number (symbol a)) (number (symbol b)) = .eq := Std.ReflCmp.compare_self
  show (compare (rank (symbol a)) (rank (symbol b))).then
    ((compare (number (symbol a)) (number (symbol b))).then (compare a b)) = compare a b
  rw [hrank, hnumber]
  rfl

/-- Verdicts of one predicate are ordered as their vehicles are. -/
theorem compare_verdicts (predicate : String) (v w : VehicleId) :
    compare (⟨predicate, [.symbol v.constant]⟩ : Atom) ⟨predicate, [.symbol w.constant]⟩ =
      compare v w := by
  show (compare predicate predicate).then
    (compare [Term.symbol v.constant] [.symbol w.constant]) = compare v w
  have hpredicate : compare predicate predicate = .eq := Std.ReflCmp.compare_self
  rw [hpredicate, List.compare_cons_cons, Term.compare_symbol, v.compare_constant]
  cases compare v w <;> rfl

namespace Model

/-- Verdicts stand in the order of their vehicles. -/
theorem ordered_subjects (m : Model) (predicate : String) :
    (m.subjects predicate).Pairwise fun v w ↦ compare v w = .lt := by
  have hatoms : (m.verdicts predicate).Pairwise fun a b ↦ compare a b = .lt :=
    m.ordered_toList.filter _
  rw [subjects, List.pairwise_filterMap]
  refine hatoms.imp_of_mem fun {a b} ha hb hlt v hv w hw ↦ ?_
  obtain ⟨-, hpredicate, harity⟩ := mem_withPredicate.1 ha
  obtain ⟨-, hpredicate', harity'⟩ := mem_withPredicate.1 hb
  rw [eq_of_subject? harity hv, eq_of_subject? harity' hw, hpredicate, hpredicate'] at hlt
  rwa [compare_verdicts] at hlt

end Model
/-- Those to stop come first, and those to stop and those to go are in order. -/
theorem Controls.exists_issued_dispatch (c : Controls) (m : Model) :
    ∃ stops goes : List VehicleId,
      (c.dispatch m).1.issued = stops.map (·, .stop) ++ goes.map (·, .go) ∧
        (stops.Pairwise fun v w ↦ compare v w = .lt) ∧
        goes.Pairwise fun v w ↦ compare v w = .lt := by
  refine ⟨m.stopped.filter fun v ↦ c.takes? v .stop == some true,
    ((m.subjects goPredicate).filter fun v ↦ v ∉ m.stopped).filter fun v ↦
      c.takes? v .go == some true, ?_, (m.ordered_subjects stopPredicate).filter _,
    ((m.ordered_subjects goPredicate).filter _).filter _⟩
  rw [c.issued_dispatch, Model.orders_eq, List.filter_append, List.filter_map, List.filter_map]
  rfl

/-! ## Summary -/

/-- **A dispatch accounts for every verdict once, and stop wins.**  For every model and all handles,
the report has the fate of each verdict as an entry, once, and no other entries.

* The malformed verdicts are those whose argument is not the constant of a vehicle.
* The conflicts are the vehicles that are told both: what becomes of the verdict to stop does not
  matter.  So a vehicle that is told to stop gets no other order.
* Every order, which is a verdict on a vehicle that is no conflict, gets the reply of the handle: it
  is unresolved without one, refused, or issued.

No vehicle gets two commands, and those who are told to stop come before those who are told to go,
each of them in the order of their names.  A handle is called once at most, with the command that is
reported as issued or refused.  This command is then the last that it has been offered, and nothing
else about it changes; without one it stays as it is. -/
theorem dispatch_exact (c : Controls) (m : Model) :
    let report := (c.dispatch m).1
    report.entries.Perm ((m.verdicts stopPredicate).map (c.fate m .stop) ++
      (m.verdicts goPredicate).map (c.fate m .go)) ∧
    (∀ a, .malformed a ∈ report.skipped ↔
      (a ∈ m.verdicts stopPredicate ∨ a ∈ m.verdicts goPredicate) ∧
        ∀ v : VehicleId, a.args ≠ [.symbol v.constant]) ∧
    (∀ v, .conflicting v ∈ report.skipped ↔ m.Says .stop v ∧ m.Says .go v) ∧
    (∀ v command reply, .ofReply (v, command) reply ∈ report.entries ↔
      m.Orders v command ∧ c.takes? v command = reply) ∧
    (report.issued.map Prod.fst).Nodup ∧
    (∃ stops goes : List VehicleId, report.issued = stops.map (·, .stop) ++ goes.map (·, .go) ∧
      (stops.Pairwise fun v w ↦ compare v w = .lt) ∧
      goes.Pairwise fun v w ↦ compare v w = .lt) ∧
    ∀ v, (report.callsTo v).length ≤ 1 ∧
      (∀ command, command ∈ report.callsTo v ↔
        (v, command) ∈ report.issued ∨ .refused v command ∈ report.skipped) ∧
      (c.dispatch m).2.handles[v]? =
        c.handles[v]?.map (fun h ↦ (report.callsTo v).foldl Handle.offer h) ∧
      (c.dispatch m).2.handles[v]? =
        c.handles[v]?.map fun h ↦ { h with offered := h.offered ++ report.callsTo v } := by
  have hnodup : ((c.dispatch m).1.issued.map Prod.fst).Nodup := by
    rw [c.issued_dispatch]
    exact m.nodup_orders.sublist (List.filter_sublist.map Prod.fst)
  exact ⟨c.entries_dispatch m, fun _ ↦ Controls.malformed_mem_skipped,
    fun _ ↦ Controls.conflicting_mem_skipped, fun _ _ _ ↦ Controls.ofReply_mem_entries, hnodup,
    c.exists_issued_dispatch m, fun v ↦ ⟨c.length_callsTo_le_one m v,
      fun _ ↦ Dispatch.mem_callsTo_iff, c.handles_dispatch m v, c.offered_dispatch m v⟩⟩

/-- A car that is told both stops. -/
example :
    let car : VehicleId := ⟨"car", by decide⟩
    let m : Model := .ofAtoms
      [⟨goPredicate, [.symbol "v_car"]⟩, ⟨stopPredicate, [.symbol "v_car"]⟩]
    ((Controls.empty.attach car .obeying).dispatch m).1.issued = [(car, .stop)] := by
  decide +kernel

end RightOfWay
