import RightOfWay.Proofs.Rules.Meaning
import RightOfWay.Proofs.Rules.Sections

/-!
# The traffic rules of an uncontrolled intersection

`yieldText` is the rule file for a crossing without signs, and `yieldRules` are its rules.

* Reading the text gives these rules (`parseProgram_yieldText`).  That is shown in two steps, over
  the tokens that the rules are spelled with (`yieldTokens`).
* The rules have a leveling (`isLeveling_yieldRules`): nobody's right of way is asked for before it
  is known who must stop.

All arguments in these rules are variables.  The anonymous ones are numbered through the text.
-/

set_option autoImplicit false

namespace RightOfWay

/-- The lines of the rule file. -/
def yieldLines : List String :=
  ["% Uncontrolled intersection.",
    "%",
    "% Input facts",
    "%   arrivesAtForkAtTime(V, F, T)      signalsAtForkAtTime(V, S, F, T)",
    "%   entersForkAtTime(V, F, T)         entersLaneAtTime(V, L, T)",
    "%   leavesLaneAtTime(V, L, T)",
    "%   isOnRightOf(F, G)                 laneFromTo(L, F, E)",
    "%   laneCorrectSignal(L, S)           overlaps(L, M)",
    "%",
    "% Verdicts",
    "%   hasRightOfWay(V)                  mustStopToYield(V)",
    "",
    "% A vehicle waits at its fork from arrival until it enters.",
    "entered(V) :- entersForkAtTime(V, _, _).",
    "waiting(V, F, T) :- arrivesAtForkAtTime(V, F, T), not entered(V).",
    "",
    "% A lane is in use from entry until exit.",
    "leftLane(V, L) :- leavesLaneAtTime(V, L, _).",
    "inLane(V, L) :- entersLaneAtTime(V, L, _), not leftLane(V, L).",
    "",
    "% Lanes a waiting vehicle may take. The indicator narrows the choice;",
    "% without one every lane from its fork counts.",
    "signalled(V) :- signalsAtForkAtTime(V, _, _, _).",
    "intends(V, L) :- waiting(V, F, _), laneFromTo(L, F, _),",
    "                 signalsAtForkAtTime(V, S, F, _), laneCorrectSignal(L, S).",
    "intends(V, L) :- waiting(V, F, _), laneFromTo(L, F, _), not signalled(V).",
    "",
    "% First come, first served.",
    "arrivedEarlier(W, V) :- waiting(V, _, T), waiting(W, _, U), U < T.",
    "",
    "% Same tick: yield to the right.",
    "yieldsToRight(V, W) :- waiting(V, F, T), waiting(W, G, T), isOnRightOf(G, F), V != W.",
    "",
    "% Never enter a lane that crosses one in use.",
    "blocked(V) :- intends(V, L), inLane(W, M), overlaps(L, M), V != W.",
    "",
    "mustStopToYield(V) :- arrivedEarlier(_, V).",
    "mustStopToYield(V) :- yieldsToRight(V, _).",
    "mustStopToYield(V) :- blocked(V).",
    "",
    "hasRightOfWay(V) :- waiting(V, _, _), not mustStopToYield(V).",
    "",
    "#show hasRightOfWay/1.",
    "#show mustStopToYield/1."]

/-- The text of the rule file. -/
def yieldText : String := String.join (yieldLines.map (· ++ "\n"))

/-- A predicate applied to variables. -/
def Pattern.over (predicate : String) (names : List String) : Pattern :=
  ⟨predicate, names.map .var⟩

/-! ## The rules -/

/-- A vehicle has entered. -/
def enteredRule : Rule :=
  ⟨some (.over "entered" ["V"]), [.pos (.over "entersForkAtTime" ["V", "_1", "_2"])], 14⟩

/-- A vehicle waits at a fork since it arrived there. -/
def waitingRule : Rule :=
  ⟨some (.over "waiting" ["V", "F", "T"]),
    [.pos (.over "arrivesAtForkAtTime" ["V", "F", "T"]), .neg (.over "entered" ["V"])], 15⟩

/-- A vehicle has left a lane. -/
def leftLaneRule : Rule :=
  ⟨some (.over "leftLane" ["V", "L"]), [.pos (.over "leavesLaneAtTime" ["V", "L", "_3"])], 18⟩

/-- A vehicle is in a lane. -/
def inLaneRule : Rule :=
  ⟨some (.over "inLane" ["V", "L"]),
    [.pos (.over "entersLaneAtTime" ["V", "L", "_4"]), .neg (.over "leftLane" ["V", "L"])], 19⟩

/-- A vehicle has shown a signal. -/
def signalledRule : Rule :=
  ⟨some (.over "signalled" ["V"]),
    [.pos (.over "signalsAtForkAtTime" ["V", "_5", "_6", "_7"])], 23⟩

/-- A waiting vehicle may take a lane, for it shows the signal that the lane asks for. -/
def intendsBySignalRule : Rule :=
  ⟨some (.over "intends" ["V", "L"]),
    [.pos (.over "waiting" ["V", "F", "_8"]), .pos (.over "laneFromTo" ["L", "F", "_9"]),
      .pos (.over "signalsAtForkAtTime" ["V", "S", "F", "_10"]),
      .pos (.over "laneCorrectSignal" ["L", "S"])], 24⟩

/-- A waiting vehicle may take a lane, for it shows no signal. -/
def intendsAnywhereRule : Rule :=
  ⟨some (.over "intends" ["V", "L"]),
    [.pos (.over "waiting" ["V", "F", "_11"]), .pos (.over "laneFromTo" ["L", "F", "_12"]),
      .neg (.over "signalled" ["V"])], 26⟩

/-- A waiting vehicle arrived before another one. -/
def arrivedEarlierRule : Rule :=
  ⟨some (.over "arrivedEarlier" ["W", "V"]),
    [.pos (.over "waiting" ["V", "_13", "T"]), .pos (.over "waiting" ["W", "_14", "U"]),
      .cmp (.var "U") .lt (.var "T")], 29⟩

/-- Of two vehicles that arrived at the same tick, one yields to the other. -/
def yieldsToRightRule : Rule :=
  ⟨some (.over "yieldsToRight" ["V", "W"]),
    [.pos (.over "waiting" ["V", "F", "T"]), .pos (.over "waiting" ["W", "G", "T"]),
      .pos (.over "isOnRightOf" ["G", "F"]), .cmp (.var "V") .ne (.var "W")], 32⟩

/-- A lane that a vehicle may take overlaps one in use. -/
def blockedRule : Rule :=
  ⟨some (.over "blocked" ["V"]),
    [.pos (.over "intends" ["V", "L"]), .pos (.over "inLane" ["W", "M"]),
      .pos (.over "overlaps" ["L", "M"]), .cmp (.var "V") .ne (.var "W")], 35⟩

/-- A vehicle must stop for one that was there before. -/
def stopForEarlierRule : Rule :=
  ⟨some (.over "mustStopToYield" ["V"]), [.pos (.over "arrivedEarlier" ["_15", "V"])], 37⟩

/-- A vehicle must stop for one on its right. -/
def stopForRightRule : Rule :=
  ⟨some (.over "mustStopToYield" ["V"]), [.pos (.over "yieldsToRight" ["V", "_16"])], 38⟩

/-- A vehicle must stop for one in a lane. -/
def stopForBlockedRule : Rule :=
  ⟨some (.over "mustStopToYield" ["V"]), [.pos (.over "blocked" ["V"])], 39⟩

/-- A waiting vehicle that need not stop may go. -/
def goRule : Rule :=
  ⟨some (.over "hasRightOfWay" ["V"]),
    [.pos (.over "waiting" ["V", "_17", "_18"]), .neg (.over "mustStopToYield" ["V"])], 41⟩

/-- The rules of the rule file. -/
def yieldRules : List Rule :=
  [enteredRule, waitingRule, leftLaneRule, inLaneRule, signalledRule, intendsBySignalRule,
    intendsAnywhereRule, arrivedEarlierRule, yieldsToRightRule, blockedRule, stopForEarlierRule,
    stopForRightRule, stopForBlockedRule, goRule]

/-! ## The text -/

/-- The tokens of the rule file.  One rule takes two lines, the second one from its twenty-sixth
token on. -/
def yieldTokens : List Located :=
  yieldRules.flatMap fun r ↦ r.tokens.mapIdx fun k t ↦
    ⟨t, if r = intendsBySignalRule ∧ 25 ≤ k then r.line + 1 else r.line⟩

theorem tokens_yieldText : tokens yieldText = .ok yieldTokens := by
  simp only [tokens, yieldText, String.toList_join, yieldLines, List.map_cons, List.map_nil,
    List.flatMap_cons, List.flatMap_nil, String.toList_append]
  -- the characters are listed before the kernel reads them
  repeat rw [String.toList_ofList]
  decide +kernel

theorem statements_yieldTokens :
    Grammar.statements (Grammar.lastLine yieldTokens) yieldTokens = (yieldRules, none) := by
  decide +kernel

theorem firstUnsafe_yieldRules : firstUnsafe yieldRules = none := by
  decide

/-- **The rule file is read as its rules.** -/
theorem parseProgram_yieldText : parseProgram yieldText = .ok yieldRules := by
  rw [parseProgram_eq, tokens_yieldText]
  dsimp only
  rw [statements_yieldTokens, verdict, firstUnsafe_yieldRules]

/-! ## The order of evaluation -/

/-- The level of each predicate: one more than what it negates. -/
def yieldLevel (r : Relation) : Nat :=
  if r.name = "hasRightOfWay" then 2
  else if r.name ∈ ["waiting", "inLane", "intends", "arrivedEarlier", "yieldsToRight", "blocked",
    "mustStopToYield"] then 1
  else 0

theorem isLeveling_yieldRules : IsLeveling yieldRules yieldLevel := by
  decide

end RightOfWay
