import RightOfWay.Proofs.Crossing.Consistency

/-!
# Operations in place

The operations on a topology, as edits of one that is overwritten bit by bit.

* An `Edit` reads and writes a topology, and what it has written stays there if it fails.
  `Topology.Operation.edit` is the one for an operation, with every write by itself.
* `Topology.Consistent.run_edit` says that an edit comes to what the operation gives, and that one
  that fails leaves no trace.
* `Topology.run_connectAll` is about the loop over all forks and exits, in which every new slot
  takes the revision up by itself.
-/

set_option autoImplicit false

namespace RightOfWay

/-! ## Edits -/

/-- A computation that overwrites a topology and can fail halfway. -/
abbrev Edit := EStateM CrossingError Topology

namespace Edit

@[simp] theorem run_throw {α : Type} (e : CrossingError) (t : Topology) :
    (throw e : Edit α).run t = .error e t :=
  rfl

/-- The revision goes up. -/
def revise : Edit Unit := modify fun t ↦ { t with revision := t.revision + 1 }

def register (constant : String) (kind : ElementKind) : Edit Unit :=
  modify fun t ↦ { t with kinds := t.kinds.insert constant kind }

def unregister (constant : String) : Edit Unit :=
  modify fun t ↦ { t with kinds := t.kinds.erase constant }

def editFork (fork : ForkId) (change : Fork → Fork) : Edit Unit :=
  modify fun t ↦ { t with forks := t.forks.modify fork change }

/-- The direction of a place that is new. -/
def newPlace (constant : String) (location forward : Vec) : Edit Vec := do
  if (← get).kinds.contains constant then
    throw (.duplicateElement constant)
  match Topology.direction constant location forward with
  | .error e => throw e
  | .ok unit => return unit

def addFork (id : ForkId) (location forward : Vec) : Edit Unit := do
  let unit ← newPlace id.constant location forward
  register id.constant .entry
  modify fun t ↦ { t with forks := t.forks.insert id ⟨id, location, unit, []⟩ }
  revise

def addExit (id : ExitId) (location forward : Vec) : Edit Unit := do
  let unit ← newPlace id.constant location forward
  register id.constant .exit
  modify fun t ↦ { t with exits := t.exits.insert id ⟨id, location, unit⟩ }
  revise

/-- The fork gets a slot for the exit if it has none. -/
def reach (fork : ForkId) (exit : ExitId) : Edit Unit := do
  match (← get).forks[fork]? with
  | none => throw (.unknownFork fork)
  | some f =>
    if f.slot? exit = none then
      editFork fork fun f ↦ { f with slots := f.slots ++ [.closed exit] }
      revise

def connect (fork : ForkId) (exit : ExitId) : Edit Unit := do
  if !(← get).exits.contains exit then
    throw (.unknownExit exit)
  reach fork exit

def connectAll : Edit Unit := do
  let t ← get
  t.forks.keys.forM fun fork ↦ t.exits.keys.forM (reach fork)

/-- The lane is opened or closed.  The slot is marked first and gets or loses the lane then, and the
lanes and constants come after that. -/
def setLane (fork : ForkId) (exit : ExitId) (active : Bool) : Edit (Option LaneId) := do
  let t ← get
  match t.exits[exit]? with
  | none => throw (.unknownExit exit)
  | some e =>
    match t.forks[fork]? with
    | none => throw (.unknownFork fork)
    | some f =>
      match f.slot? exit with
      | none => throw (.notReachable fork exit)
      | some slot =>
        match active, slot.lane? with
        | true, some lane => return some lane
        | false, none => return none
        | false, some lane =>
          editFork fork (·.putSlot ⟨exit, false, slot.lane?⟩)
          editFork fork (·.putSlot ⟨exit, false, none⟩)
          unregister lane.constant
          modify fun t ↦ { t with lanes := t.lanes.erase lane }
          revise
          return none
        | true, none =>
          let lane := Lane.joining f e
          match t.lanes[lane.id]? with
          | some taken => throw (.laneCollision lane.id fork exit taken.fork taken.exit)
          | none =>
            editFork fork (·.putSlot ⟨exit, true, slot.lane?⟩)
            editFork fork (·.putSlot ⟨exit, true, some lane.id⟩)
            register lane.id.constant .lane
            modify fun t ↦ { t with lanes := t.lanes.insert lane.id lane }
            revise
            return some lane.id

end Edit

/-! ## Slots, one after the other -/

namespace Fork

variable {f : Fork} {exit : ExitId} {exits : List ExitId}

theorem unconnected_singleton_eq_nil_iff :
    f.unconnected [exit] = [] ↔ (f.slot? exit).isSome = true := by
  simp [unconnected, Option.isSome_iff_ne_none]

theorem unconnected_singleton (hslot : f.slot? exit = none) : f.unconnected [exit] = [exit] := by
  simp [unconnected, hslot]

theorem unconnected_cons (f : Fork) (exit : ExitId) (exits : List ExitId) :
    f.unconnected (exit :: exits) = f.unconnected [exit] ++ f.unconnected exits :=
  List.filter_append [exit] exits

/-- To connect one exit connects no other. -/
theorem unconnected_connect_singleton (hexit : exit ∉ exits) :
    (f.connect [exit]).unconnected exits = f.unconnected exits := by
  refine List.filter_congr fun exit' hexit' ↦ ?_
  have hne : exit ≠ exit' := by
    rintro rfl
    exact hexit hexit'
  have hnew : ((f.unconnected [exit]).map Slot.closed).find? (·.exit == exit') = none := by
    refine List.find?_eq_none.2 fun s hs ↦ ?_
    obtain ⟨e, he, rfl⟩ := List.mem_map.1 hs
    obtain rfl := List.mem_singleton.1 (mem_unconnected.1 he).1
    simpa [Slot.closed] using hne
  rw [slot?, slot?, connect, List.find?_append, hnew, Option.or_none]

theorem connect_cons (hexit : exit ∉ exits) :
    (f.connect [exit]).connect exits = f.connect (exit :: exits) := by
  rw [connect, unconnected_connect_singleton hexit, connect, connect,
    unconnected_cons f exit exits, List.map_append, List.append_assoc]

/-- The last slot that is put in a place stays there. -/
theorem putSlot_putSlot {slot slot' : Slot} (hexit : slot.exit = slot'.exit) :
    (f.putSlot slot).putSlot slot' = f.putSlot slot' := by
  simp only [putSlot, List.map_map]
  congr 1
  refine List.map_congr_left fun s _ ↦ ?_
  by_cases hs : s.exit = slot'.exit
  · simp [hs, hexit]
  · simp [hs, hexit]

end Fork

namespace Topology

variable {t : Topology} {fork : ForkId} {exit : ExitId} {f : Fork} {exits : List ExitId}

/-! ## What edits come to -/

/-- The value and the topology that a result stands for, or its error and the topology as it was. -/
def settled {α β : Type} (t : Topology) (value : α → β) (topology : α → Topology) :
    Except CrossingError α → EStateM.Result CrossingError Topology β
  | .ok a => .ok (value a) (topology a)
  | .error e => .error e t

theorem run_newPlace (t : Topology) (constant : String) (location forward : Vec) :
    (Edit.newPlace constant location forward).run t =
      if constant ∈ t.kinds then .error (.duplicateElement constant) t
      else t.settled id (fun _ ↦ t) (direction constant location forward) := by
  rw [Edit.newPlace]
  by_cases hknown : constant ∈ t.kinds
  · simp [hknown]
  · cases direction constant location forward <;> simp [hknown, settled]

theorem run_addFork (t : Topology) (id : ForkId) (location forward : Vec) :
    (Edit.addFork id location forward).run t =
      t.settled (fun _ ↦ ()) (fun t' ↦ t') (t.addFork id location forward) := by
  rw [Edit.addFork, EStateM.run_bind, run_newPlace, addFork]
  by_cases hknown : id.constant ∈ t.kinds
  · simp [hknown, settled]
  · cases direction id.constant location forward <;>
      simp [hknown, settled, Except.map, Edit.register, Edit.revise]

theorem run_addExit (t : Topology) (id : ExitId) (location forward : Vec) :
    (Edit.addExit id location forward).run t =
      t.settled (fun _ ↦ ()) (fun t' ↦ t') (t.addExit id location forward) := by
  rw [Edit.addExit, EStateM.run_bind, run_newPlace, addExit]
  by_cases hknown : id.constant ∈ t.kinds
  · simp [hknown, settled]
  · cases direction id.constant location forward <;>
      simp [hknown, settled, Except.map, Edit.register, Edit.revise]

/-- The topology with slots for the exits at the fork.  Every new one counts. -/
def reached (t : Topology) (fork : ForkId) (f : Fork) (exits : List ExitId) : Topology :=
  { t with
    forks := t.forks.insert fork (f.connect exits)
    revision := t.revision + (f.unconnected exits).length }

theorem reached_of_unconnected (hf : t.forks[fork]? = some f) (h : f.unconnected exits = []) :
    t.reached fork f exits = t := by
  rw [reached, Fork.connect, h]
  simp [insert_of_getElem? hf]

theorem reached_singleton (hf : t.forks[fork]? = some f) (exit : ExitId) :
    t.reached fork f [exit] =
      if (f.slot? exit).isSome then t
      else
        { t with
          forks := t.forks.insert fork (f.connect [exit])
          revision := t.revision + 1 } := by
  split
  · rename_i hslot
    exact reached_of_unconnected hf (Fork.unconnected_singleton_eq_nil_iff.2 hslot)
  · rename_i hslot
    rw [reached, Fork.unconnected_singleton (Option.not_isSome_iff_eq_none.1 hslot),
      List.length_singleton]

theorem reached_reached (hexit : exit ∉ exits) :
    (t.reached fork f [exit]).reached fork (f.connect [exit]) exits =
      t.reached fork f (exit :: exits) := by
  simp only [reached, Fork.connect_cons hexit, Fork.unconnected_connect_singleton hexit,
    f.unconnected_cons exit exits, List.length_append, Nat.add_assoc, insert_insert]

theorem run_reach (hf : t.forks[fork]? = some f) (exit : ExitId) :
    (Edit.reach fork exit).run t = .ok () (t.reached fork f [exit]) := by
  rw [Edit.reach, reached_singleton hf]
  cases hslot : f.slot? exit with
  | none =>
    simp [hf, hslot, Edit.editFork, Edit.revise, Fork.connect, Fork.unconnected_singleton hslot,
      modify_eq_insert hf]
  | some slot => simp [hf, hslot]

theorem run_connect (t : Topology) (fork : ForkId) (exit : ExitId) :
    (Edit.connect fork exit).run t =
      t.settled (fun _ ↦ ()) (fun t' ↦ t') (t.connect fork exit) := by
  rw [Edit.connect, connect]
  cases hexit : t.exits.contains exit with
  | false => simp [hexit, settled]
  | true =>
    cases hf : t.forks[fork]? with
    | none => simp [hexit, hf, settled, Edit.reach]
    | some f => simp [hexit, settled, run_reach hf, reached_singleton hf]

/-- One fork is connected to one exit after the other. -/
theorem run_forM_reach (hf : t.forks[fork]? = some f) (hexits : exits.Nodup) :
    (exits.forM (Edit.reach fork)).run t = .ok () (t.reached fork f exits) := by
  induction exits generalizing t f with
  | nil =>
    rw [reached_of_unconnected hf rfl]
    rfl
  | cons exit exits ih =>
    obtain ⟨hexit, hexits⟩ := List.nodup_cons.1 hexits
    have hnext : (t.reached fork f [exit]).forks[fork]? = some (f.connect [exit]) :=
      Std.ExtTreeMap.getElem?_insert_self
    rw [List.forM_eq_forM, List.forM_cons, EStateM.run_bind, run_reach hf]
    exact (ih hnext hexits).trans (congrArg _ (reached_reached hexit))

/-- One fork after the other is connected.  Those that are still to come are as they were. -/
theorem run_forM_forks (hexits : exits.Nodup) {entries : List (ForkId × Fork)}
    (hnodup : (entries.map Prod.fst).Nodup) (hforks : ∀ p ∈ entries, t.forks[p.1]? = some p.2) :
    ((entries.map Prod.fst).forM fun fork ↦ exits.forM (Edit.reach fork)).run t = .ok () { t with
      forks := t.forks.insertMany (entries.map fun p ↦ (p.1, p.2.connect exits))
      revision := t.revision + (entries.flatMap fun p ↦ p.2.unconnected exits).length } := by
  induction entries generalizing t with
  | nil => rfl
  | cons p entries ih =>
    obtain ⟨hp, hnodup⟩ := List.nodup_cons.1 hnodup
    have hf : t.forks[p.1]? = some p.2 := hforks p List.mem_cons_self
    have hrest : ∀ q ∈ entries, (t.reached p.1 p.2 exits).forks[q.1]? = some q.2 := by
      intro q hq
      rw [reached, Std.ExtTreeMap.getElem?_insert, if_neg]
      · exact hforks q (List.mem_cons_of_mem _ hq)
      · intro heq
        rw [Std.LawfulEqCmp.eq_of_compare heq] at hp
        exact hp (List.mem_map_of_mem hq)
    rw [List.map_cons, List.forM_eq_forM, List.forM_cons, EStateM.run_bind,
      run_forM_reach hf hexits]
    refine (ih hnodup hrest).trans ?_
    simp [reached, Nat.add_assoc, Std.ExtTreeMap.insertMany_cons]

theorem run_connectAll (t : Topology) : Edit.connectAll.run t = .ok () t.connectAll := by
  have hnodup : (t.forks.toList.map Prod.fst).Nodup := by
    rw [Std.ExtTreeMap.map_fst_toList_eq_keys]
    exact Std.ExtTreeMap.nodup_keys
  have hforks : ∀ p ∈ t.forks.toList, t.forks[p.1]? = some p.2 :=
    fun _ ↦ Std.ExtTreeMap.mem_toList_iff_getElem?_eq_some.1
  rw [Edit.connectAll, EStateM.run_bind, EStateM.run_get]
  dsimp only
  rw [← Std.ExtTreeMap.map_fst_toList_eq_keys,
    run_forM_forks Std.ExtTreeMap.nodup_keys hnodup hforks,
    insertMany_toList t.forks (·.connect t.exits.keys), connectAll, values_eq_map_toList,
    List.flatMap_map]

theorem modify_putSlot (hf : t.forks[fork]? = some f) (slot slot' : Slot)
    (hexit : slot.exit = slot'.exit) :
    (t.forks.modify fork (·.putSlot slot)).modify fork (·.putSlot slot') =
      t.forks.insert fork (f.putSlot slot') := by
  rw [modify_eq_insert hf, modify_eq_insert Std.ExtTreeMap.getElem?_insert_self, insert_insert,
    Fork.putSlot_putSlot hexit]

theorem Consistent.run_setLane (ht : t.Consistent) (fork : ForkId) (exit : ExitId) (active : Bool) :
    (Edit.setLane fork exit active).run t =
      t.settled LaneChange.lane? LaneChange.topology (t.setLane fork exit active) := by
  rw [Edit.setLane, Topology.setLane, EStateM.run_bind, EStateM.run_get]
  dsimp only
  cases he : t.exits[exit]? with
  | none => rfl
  | some e =>
  cases hf : t.forks[fork]? with
  | none => rfl
  | some f =>
  dsimp only
  cases hslot : f.slot? exit with
  | none => rfl
  | some slot =>
  obtain rfl := ht.keyed fork f hf
  obtain rfl := ht.exit_id exit e he
  dsimp only
  cases hlane : slot.lane? with
  | none =>
    cases active with
    | false => rfl
    | true =>
      dsimp only
      cases t.lanes[(Lane.joining f e).id]? with
      | some taken => rfl
      | none =>
        exact congrArg (fun forks ↦ EStateM.Result.ok _ { t.openLane f (.joining f e) with forks })
          (modify_putSlot hf ⟨e.id, true, none⟩ (.opened e.id (Lane.joining f e).id) rfl)
  | some lane =>
    cases active with
    | false =>
      exact congrArg (fun forks ↦ EStateM.Result.ok _ { t.closeLane f e.id lane with forks })
        (modify_putSlot hf ⟨e.id, false, some lane⟩ (.closed e.id) rfl)
    | true => rfl

/-! ## Operations -/

/-- What an operation gives. -/
def attempt (t : Topology) : Operation → Except CrossingError Topology
  | .addFork id location forward => t.addFork id location forward
  | .addExit id location forward => t.addExit id location forward
  | .connect fork exit => t.connect fork exit
  | .connectAll => .ok t.connectAll
  | .setLane fork exit active => (t.setLane fork exit active).map LaneChange.topology

/-- An operation that fails is not performed. -/
theorem perform_eq (t : Topology) (operation : Operation) :
    t.perform operation = (t.attempt operation).toOption.getD t := by
  cases operation with
  | addFork | addExit | connect | connectAll => rfl
  | setLane fork exit active =>
    rw [perform, attempt]
    cases t.setLane fork exit active <;> rfl

/-- What an operation does in place. -/
def Operation.edit : Operation → Edit Unit
  | .addFork id location forward => Edit.addFork id location forward
  | .addExit id location forward => Edit.addExit id location forward
  | .connect fork exit => Edit.connect fork exit
  | .connectAll => Edit.connectAll
  | .setLane fork exit active => do
    let _ ← Edit.setLane fork exit active

/-- **An edit comes to all that its operation gives, or to nothing but the error.** -/
theorem Consistent.run_edit (ht : t.Consistent) (operation : Operation) :
    operation.edit.run t = t.settled (fun _ ↦ ()) (fun t' ↦ t') (t.attempt operation) := by
  cases operation with
  | addFork id location forward => exact t.run_addFork id location forward
  | addExit id location forward => exact t.run_addExit id location forward
  | connect fork exit => exact t.run_connect fork exit
  | connectAll => exact t.run_connectAll
  | setLane fork exit active =>
    rw [attempt, Operation.edit, EStateM.run_bind, ht.run_setLane]
    cases t.setLane fork exit active <;> rfl

variable {t' : Topology} {operation : Operation}

theorem Consistent.run_eq_ok_iff (ht : t.Consistent) :
    operation.edit.run t = .ok () t' ↔ t.attempt operation = .ok t' := by
  rw [ht.run_edit]
  cases t.attempt operation <;> simp [settled]

theorem Consistent.run_eq_error_iff (ht : t.Consistent) {e : CrossingError} :
    operation.edit.run t = .error e t' ↔ t.attempt operation = .error e ∧ t' = t := by
  rw [ht.run_edit]
  cases t.attempt operation <;> simp [settled, eq_comm]

end Topology
end RightOfWay
