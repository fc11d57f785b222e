import RightOfWay.Arbitration.EventText
import RightOfWay.Arbitration.Replay
import RightOfWay.Command.LayoutFile
import RightOfWay.Oracle.Solver
import RightOfWay.Oracle.Stratified

/-!
# The command that replays events

It sets up a monitor from a layout file, a rule file and perhaps a settings file, replays the events
of an event file, and prints the protocol.  Where a directory for artifacts is named, the journal of
the monitor is kept there.
-/

set_option autoImplicit false

namespace RightOfWay

/-- Which oracle a replay asks. -/
inductive OracleChoice where
  | builtin
  /-- The external solver that this file runs. -/
  | external (executable : String)
  deriving DecidableEq

/-- What a replay is told on the command line. -/
structure ReplayOptions where
  intersection : String
  events : String
  rules? : Option String
  artifacts? : Option String
  maxModels? : Option Nat
  oracle : OracleChoice
  config? : Option String
  deriving DecidableEq

variable {m : Type → Type} [Monad m]

/-- The settings in a file, or the standard ones if none is named. -/
def loadSettings (files : FileAccess m) (path? : Option String) :
    m (Except CommandError Settings) := do
  match path? with
  | none => return .ok .standard
  | some path =>
    match ← files.read path with
    | .error e => return .error (.settingsUnusable path (.unreadable e))
    | .ok text =>
      match Settings.read? text with
      | none => return .error (.settingsUnusable path .malformed)
      | some settings =>
        match settings.check with
        | .error e => return .error (.settingsUnusable path (.invalid e))
        | .ok _ => return .ok settings

/-- The settings with what the command line says in place of what the file says. -/
def ReplayOptions.override (o : ReplayOptions) (s : Settings) : Settings :=
  { s with
    rulesPath := o.rules?.getD s.rulesPath
    artifactDir? := o.artifacts?.or s.artifactDir?
    maxModels := o.maxModels?.getD s.maxModels }

/-- The oracle of the choice, with the files as they are now. -/
def OracleChoice.oracle (files : FileAccess m) : OracleChoice → m Oracle
  | builtin => return .stratified standardBudget
  | external executable => do
    let error ← files.startError executable
    return .external ⟨executable, fun _ _ ↦ .error error⟩

/-- The path of a file in a directory. -/
def inDirectory (directory name : String) : String :=
  if directory = "" ∨ directory.endsWith "/" then directory ++ name else directory ++ "/" ++ name

/-- The journal of the monitor written to its files. -/
def saveJournal (files : FileAccess m) (monitor : Monitor) : m Unit := do
  match monitor.settings.artifactDir?, monitor.journal? with
  | some directory, some journal => do
    files.makeDirectory directory
    for (name, text) in journal.files do
      files.write (inDirectory directory name) text
  | _, _ => return

/-- The monitor that the options ask for, with the built-in oracle. -/
def loadMonitor (files : FileAccess m) (o : ReplayOptions) (clock : Nat → Stamp) :
    m (Except CommandError Monitor) := do
  match ← loadSettings files o.config? with
  | .error e => return .error e
  | .ok settings =>
    let settings := o.override settings
    match ← loadLayout files o.intersection with
    | .error e => return .error e
    | .ok (topology, probe) =>
      match ← files.read settings.rulesPath with
      | .error e => return .error (.notInitialized (.rulesUnreadable settings.rulesPath e))
      | .ok rules =>
        match Monitor.make settings topology probe rules (.stratified standardBudget) clock with
        | .error e => return .error (.notInitialized (.invalid e))
        | .ok monitor => return .ok monitor

/-- The events in a file. -/
def loadEvents (files : FileAccess m) (path : String) : m (Except CommandError (List Event)) := do
  match ← files.read path with
  | .error e => return .error (.eventsUnreadable path e)
  | .ok text =>
    match Event.readList? text with
    | none => return .error (.eventsMalformed path)
    | some events => return .ok events

/-- The protocol of a replay. -/
def replayFiles (files : FileAccess m) (o : ReplayOptions) (clock : Nat → Stamp) :
    m (Except CommandError CommandResult) := do
  match ← loadMonitor files o clock with
  | .error e => return .error e
  | .ok monitor =>
    saveJournal files monitor
    let monitor := monitor.withOracle (← o.oracle.oracle files)
    match ← loadEvents files o.events with
    | .error e => return .error e
    | .ok events =>
      let (steps, monitor) := monitor.replay events
      saveJournal files monitor
      return .ok ⟨0, String.join (steps.map fun s ↦ s.render ++ "\n") ++ monitor.summary⟩

end RightOfWay
