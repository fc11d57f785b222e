import RightOfWay.Proofs.Arbitration.Session
import RightOfWay.Proofs.OrderedMap

/-!
# What the ledger knows

The ledger as a function from vehicles to histories.

* `Ledger.mem_facts` says that its facts are those of the histories, `Ledger.getElem?_observeEvent`
  and `Ledger.getElem?_evict` how a ledger changes, and `Ledger.history_observeEvent` and
  `Ledger.history_evict` how a history does.
* In every state a history holds facts that events of its own vehicle have made
  (`Monitor.stable_recorded`), so that what is known about one vehicle never comes from another one.
-/

set_option autoImplicit false

namespace RightOfWay

namespace Ledger

theorem history_eq (l : Ledger) (v : VehicleId) : l.history v = (l.agents[v]?).getD .blank :=
  Std.ExtTreeMap.getD_eq_getD_getElem?

/-- The ledger holds the facts of the histories and no others. -/
theorem mem_facts {l : Ledger} {a : Atom} : a ∈ l.facts ↔ ∃ v, a ∈ (l.history v).facts := by
  rw [facts, List.mem_flatMap]
  constructor
  · rintro ⟨h, hmem, ha⟩
    obtain ⟨v, hv⟩ := mem_values.1 hmem
    refine ⟨v, ?_⟩
    rw [history_eq, hv]
    exact ha
  · rintro ⟨v, ha⟩
    rw [history_eq] at ha
    rcases hv : l.agents[v]? with _ | h
    · rw [hv] at ha
      exact absurd ha List.not_mem_nil
    · rw [hv] at ha
      exact ⟨h, mem_values.2 ⟨v, hv⟩, ha⟩

@[simp] theorem history_empty (v : VehicleId) : empty.history v = .blank := by
  simp [history, empty]

theorem contains_eq_isSome (l : Ledger) (v : VehicleId) : l.contains v = l.agents[v]?.isSome :=
  Std.ExtTreeMap.contains_eq_isSome_getElem?

theorem mem_vehicles {l : Ledger} {v : VehicleId} : v ∈ l.vehicles ↔ l.contains v = true :=
  Std.ExtTreeMap.mem_keys.trans Std.ExtTreeMap.contains_iff_mem.symm

theorem getElem?_observeEvent (l : Ledger) (e : Event) (tick : Tick) (v : VehicleId) :
    (l.observeEvent e tick).agents[v]? =
      if e.vehicle = v then some ⟨some e.phase, (l.history e.vehicle).facts ++ e.facts tick⟩
      else l.agents[v]? := by
  simp only [observeEvent, observe, Std.ExtTreeMap.getElem?_insert,
    Std.LawfulEqCmp.compare_eq_iff_eq]

theorem getElem?_evict (l : Ledger) (v w : VehicleId) :
    (l.evict v).agents[w]? = if v = w then none else l.agents[w]? := by
  simp only [evict, Std.ExtTreeMap.getElem?_erase, Std.LawfulEqCmp.compare_eq_iff_eq]

theorem history_observeEvent (l : Ledger) (e : Event) (tick : Tick) (v : VehicleId) :
    (l.observeEvent e tick).history v =
      if e.vehicle = v then ⟨some e.phase, (l.history e.vehicle).facts ++ e.facts tick⟩
      else l.history v := by
  rw [history_eq, getElem?_observeEvent, l.history_eq v]
  split <;> rfl

theorem history_evict (l : Ledger) (v w : VehicleId) :
    (l.evict v).history w = if v = w then .blank else l.history w := by
  rw [history_eq, getElem?_evict, l.history_eq w]
  split <;> rfl

end Ledger

namespace Monitor

/-- Every fact about a vehicle was made by an event of this vehicle. -/
def Recorded (m : Monitor) : Prop :=
  ∀ v, ∀ a ∈ (m.ledger.history v).facts, ∃ e : Event, ∃ tick, e.vehicle = v ∧ a ∈ e.facts tick

theorem Recorded.congr {m m' : Monitor} (h : m.Recorded) (hledger : m'.ledger = m.ledger) :
    m'.Recorded := by
  rw [Recorded, hledger]
  exact h

theorem stable_recorded : Stable Recorded where
  attach _ _ _ h := h.congr rfl
  record m e h v a ha := by
    rw [record, Ledger.history_observeEvent] at ha
    split at ha
    · rename_i hv
      rcases List.mem_append.1 ha with hold | hnew
      · exact h v a (hv ▸ hold)
      · exact ⟨e, _, hv, hnew⟩
    · exact h v a ha
  forget m v h w a ha := by
    rw [forget, Ledger.history_evict] at ha
    split at ha
    · exact absurd ha List.not_mem_nil
    · exact h w a ha
  setLane m _ _ _ _ _ hok h := by
    obtain ⟨-, rfl⟩ := setLane_eq_ok hok
    exact h.congr rfl
  refresh _ h := h.congr rfl
  solve _ h := h.congr rfl
  dispatch m m' h _ := by
    obtain ⟨_, _, heq⟩ := m.dispatch_eq m'.solve.1
    rw [heq]
    exact h.congr rfl

theorem Fresh.recorded {m : Monitor} (h : m.Fresh) : m.Recorded := by
  intro v a ha
  rw [h.ledger, Ledger.history_empty] at ha
  exact absurd ha List.not_mem_nil

end Monitor
end RightOfWay
