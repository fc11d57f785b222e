import RightOfWay.Crossing.Layout
import RightOfWay.Yaml.Reader

/-!
# Reading layouts

A layout is written in YAML.  What is not written has its standard value.  Entries that mean nothing
are refused, except in vectors, and a name may be any scalar that has the form of one.
-/

set_option autoImplicit false

namespace RightOfWay.Layout

/-- The identifier that a scalar names. -/
def ident? {r : Role} (y : Yaml) : Option (Ident r) := y.text?.bind Ident.ofText?

def vec? (y : Yaml) : Option Vec :=
  match y.openRecord? ["x", "y", "z"] with
  | some [some x, some y, z] => do
    return ⟨← x.float?, ← y.float?, ← Yaml.orElse? 0 Yaml.float? z⟩
  | _ => none

def extent? (y : Yaml) : Option Extent :=
  match y.record? ["x", "y"] with
  | some [some x, some y] => do return ⟨← x.float?, ← y.float?⟩
  | _ => none

def place? {r : Role} (y : Yaml) : Option (Place r) :=
  match y.record? ["id", "location", "forward"] with
  | some [some id, some location, some forward] => do
    return ⟨← ident? id, ← vec? location, ← vec? forward⟩
  | _ => none

def lane? (y : Yaml) : Option (ForkId × ExitId) :=
  match y.record? ["fork", "exit"] with
  | some [some fork, some exit] => do return (← ident? fork, ← ident? exit)
  | _ => none

/-- A list of exactly two lanes. -/
def overlap? : Yaml → Option (LaneId × LaneId)
  | .list [a, b] => do return (← ident? a, ← ident? b)
  | _ => none

/-- The layout that a YAML node stands for. -/
def ofYaml? (y : Yaml) : Option Layout :=
  let names :=
    ["center", "extent", "yaw", "forks", "exits", "lanes", "overlaps", "corridor_half_width"]
  match y.record? names with
  | some [center, extent, yaw, forks, exits, lanes, overlaps, halfWidth] => do
    return {
      center := ← Yaml.orElse? blank.center vec? center
      extent := ← Yaml.orElse? blank.extent extent? extent
      yaw := ← Yaml.orElse? blank.yaw Yaml.float? yaw
      forks := ← Yaml.orElse? [] (Yaml.items? place?) forks
      exits := ← Yaml.orElse? [] (Yaml.items? place?) exits
      lanes := ← Yaml.orElse? [] (Yaml.items? lane?) lanes
      overlaps := ← Yaml.orElse? [] (Yaml.items? overlap?) overlaps
      corridorHalfWidth? := ← Yaml.orElse? none (Yaml.optional? Yaml.float?) halfWidth }
  | _ => none

/-- The layout that a text describes. -/
def read? (text : String) : Option Layout := (Yaml.read? text).bind ofYaml?

end RightOfWay.Layout
