/-!
# Notices

Work that goes on although something is odd leaves a `Notice` about it.
-/

set_option autoImplicit false

namespace RightOfWay

/-- How urgent a notice is. -/
inductive Level where
  | debug
  | warning
  | error
  deriving DecidableEq

/-- The word for the level. -/
def Level.label : Level → String
  | debug => "DEBUG"
  | warning => "WARN"
  | error => "ERROR"

/-- What was odd. -/
inductive Notice where
  | laneNeedsUTurn
  | laneNeedsInflection
  | unsatisfiable
  | undetermined
  | oracleFailed
  /-- An event names an element of the crossing that cannot play its part. -/
  | wrongElement
  /-- An event names an element that the crossing does not have. -/
  | unknownElement
  | unexpectedPhase
  /-- A verdict is about something that is no vehicle. -/
  | malformedVerdict
  /-- One answer lets a vehicle go and stops it. -/
  | conflictingVerdicts
  /-- A verdict is about a vehicle that has no handle. -/
  | noHandle
  | commandRefused
  /-- The file for the facts about the crossing cannot be there. -/
  | factsNotWritten
  /-- The file for the solved programs cannot be there. -/
  | programNotLogged
  deriving DecidableEq

namespace Notice

def level : Notice → Level
  | unexpectedPhase => .debug
  | oracleFailed => .error
  | _ => .warning

/-- The words of the notice. -/
def text : Notice → String
  | laneNeedsUTurn => "lane requires a U-turn; no mid-turn interpolant"
  | laneNeedsInflection => "lane requires an inflection point"
  | unsatisfiable => "program unsatisfiable; actuation unchanged"
  | undetermined => "program undetermined; actuation unchanged"
  | oracleFailed => "oracle failure; actuation unchanged"
  | wrongElement => "event names an element of the wrong kind; recorded anyway"
  | unknownElement => "event names an unknown element; recorded anyway"
  | unexpectedPhase => "unexpected agent phase transition"
  | malformedVerdict => "solved predicate does not name a vehicle"
  | conflictingVerdicts => "model grants and denies right of way; stopping"
  | noHandle => "no live handle for solved agent; skipped"
  | commandRefused => "command refused"
  | factsNotWritten => "cannot write geometry facts"
  | programNotLogged => "cannot append program log"

end Notice
end RightOfWay
