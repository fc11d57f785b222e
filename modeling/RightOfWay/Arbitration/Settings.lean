import RightOfWay.Clock
import RightOfWay.Yaml.Reader

/-!
# Settings of a monitor

`Settings.check` accepts settings that a monitor can work with and gives the resolution of its
clock.  `Settings.read?` reads them from YAML, where what is not written has its standard value.
-/

set_option autoImplicit false

namespace RightOfWay

/-- What a monitor can be told about its work. -/
structure Settings where
  /-- The name, which the names of its files start with. -/
  name : String
  /-- The width of a tick in seconds. -/
  timeResolution : Float
  /-- The number of models that a solve asks for. -/
  maxModels : Nat
  rulesPath : String
  /-- Where files are kept, if they are. -/
  artifactDir? : Option String

namespace Settings

def standard : Settings :=
  ⟨"Monitor", Resolution.standard.seconds, 20, "uncontrolled-intersection.cl", none⟩

/-- A character of a monitor's name. -/
def isMonitorChar (c : Char) : Bool := isNameChar c || c == '-'

/-- The resolution of the clock, if the settings are fit for use. -/
def check (s : Settings) : Except InvalidValue Resolution :=
  if s.name.toList = [] ∨ ¬ s.name.toList.all isMonitorChar then .error (.monitorName s.name)
  else if s.maxModels = 0 then .error .modelCap
  else Resolution.make s.timeResolution

/-- The settings that a YAML node stands for. -/
def ofYaml? (y : Yaml) : Option Settings :=
  match y.record? ["name", "time_resolution", "max_models", "rules_path", "artifact_dir"] with
  | some [name, resolution, cap, rules, artifacts] => do
    return {
      name := ← Yaml.orElse? standard.name Yaml.text? name
      timeResolution := ← Yaml.orElse? standard.timeResolution Yaml.float? resolution
      maxModels := ← Yaml.orElse? standard.maxModels Yaml.word? cap
      rulesPath := ← Yaml.orElse? standard.rulesPath Yaml.text? rules
      artifactDir? := ← Yaml.orElse? none (Yaml.optional? Yaml.text?) artifacts }
  | _ => none

/-- The settings that a text holds. -/
def read? (text : String) : Option Settings := (Yaml.read? text).bind ofYaml?

end Settings
end RightOfWay
