import RightOfWay.Ident

/-!
# Controls

A vehicle obeys commands through its `Handle`, which takes a command or refuses it.  The `Controls`
are the handles of the vehicles at a crossing, with a record of all commands that were ever
accepted.
-/

set_option autoImplicit false

namespace RightOfWay

/-- What a vehicle can be told to do. -/
inductive Command where
  | stop
  | go
  deriving DecidableEq

/-- The word for the command. -/
def Command.label : Command → String
  | stop => "stop"
  | go => "go"

/-- A way to command a vehicle. -/
structure Handle where
  /-- Whether a command is accepted after those that have been offered earlier. -/
  accepts : (earlier : List Command) → Command → Bool
  /-- The commands that have been offered so far. -/
  offered : List Command

namespace Handle

/-- The handle of a vehicle that accepts every command. -/
def obeying : Handle := ⟨fun _ _ ↦ true, []⟩

/-- The handle of a vehicle that refuses every command. -/
def refusing : Handle := ⟨fun _ _ ↦ false, []⟩

/-- Whether the command is accepted now. -/
def takes (h : Handle) (c : Command) : Bool := h.accepts h.offered c

/-- The handle after the command has been offered. -/
def offer (h : Handle) (c : Command) : Handle := { h with offered := h.offered ++ [c] }

/-- Offers add up, and they change nothing but what has been offered. -/
theorem foldl_offer (h : Handle) (commands : List Command) :
    commands.foldl offer h = { h with offered := h.offered ++ commands } := by
  induction commands generalizing h with
  | nil => rw [List.foldl_nil, List.append_nil]
  | cons command commands ih =>
    rw [List.foldl_cons, ih, offer, List.append_assoc, List.singleton_append]

end Handle

/-- The wording of a refusal. -/
def refusalMessage : String := "vehicle does not accept external commands"

/-- The handles of the vehicles, and the accepted commands from the first to the last. -/
structure Controls where
  handles : Std.ExtTreeMap VehicleId Handle
  accepted : List (VehicleId × Command)

namespace Controls

def empty : Controls := ⟨∅, []⟩

/-- Whether the vehicle has a handle. -/
def contains (c : Controls) (v : VehicleId) : Bool := c.handles.contains v

/-- The controls with a handle for the vehicle, in place of the one it has. -/
def attach (c : Controls) (v : VehicleId) (h : Handle) : Controls :=
  { c with handles := c.handles.insert v h }

/-- The controls without a handle for the vehicle. -/
def detach (c : Controls) (v : VehicleId) : Controls := { c with handles := c.handles.erase v }

/-- Whether the vehicle would accept the command; nothing if it has no handle. -/
def takes? (c : Controls) (v : VehicleId) (command : Command) : Option Bool :=
  c.handles[v]?.map (·.takes command)

/-- The controls after the command has been offered to the vehicle. -/
def offer (c : Controls) (v : VehicleId) (command : Command) : Controls :=
  match c.handles[v]? with
  | none => c
  | some h =>
    ⟨c.handles.insert v (h.offer command),
      if h.takes command then c.accepted ++ [(v, command)] else c.accepted⟩

/-- The vehicles with handles, in order. -/
def vehicles (c : Controls) : List VehicleId := c.handles.keys

/-- The command that the vehicle accepted last. -/
def lastFor (c : Controls) (v : VehicleId) : Option Command :=
  (c.accepted.reverse.find? (·.1 == v)).map (·.2)

/-- The vehicles with handles in brief. -/
def describe (c : Controls) : String :=
  "\x7b" ++ ", ".intercalate (c.vehicles.map fun v ↦ "VehicleId(\"" ++ v.text ++ "\")") ++ "\x7d"

end Controls
end RightOfWay
