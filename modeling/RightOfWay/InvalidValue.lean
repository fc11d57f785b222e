import RightOfWay.Decimal.Positional
import RightOfWay.Ident

/-!
# Refused values

Names and settings are checked where they enter.  `InvalidValue` lists what can be wrong with them,
and `InvalidValue.message` words it.
-/

set_option autoImplicit false

namespace RightOfWay

/-- Why a name or a setting was refused. -/
inductive InvalidValue where
  /-- The text is not a name. -/
  | identifier (role : Role) (text : String)
  /-- The width of a tick is not a finite number above zero. -/
  | resolution (value : Float)
  /-- A solve must ask for at least one model. -/
  | modelCap
  /-- A monitor's name has characters other than letters, digits, `_` and `-`, or none at all. -/
  | monitorName (text : String)

/-- The wording of the refusal. -/
def InvalidValue.message : InvalidValue → String
  | identifier role text =>
    "invalid " ++ role.label ++ " identifier: \"" ++ text ++ "\" (expected non-empty [A-Za-z0-9_])"
  | resolution value =>
    "invalid time resolution " ++ floatText value ++ " (expected finite value > 0)"
  | modelCap => "max_models must be at least 1"
  | monitorName text => "invalid monitor name: \"" ++ text ++ "\""

/-- The identifier of this name, or why there is none. -/
def Ident.make {r : Role} (text : String) : Except InvalidValue (Ident r) :=
  match Ident.ofText? text with
  | some i => .ok i
  | none => .error (.identifier r text)

theorem Ident.make_eq_ok_iff {r : Role} {text : String} {i : Ident r} :
    Ident.make text = .ok i ↔ i.text = text := by
  constructor
  · intro h
    unfold Ident.make at h
    split at h <;> cases h
    rename_i hi
    exact Ident.text_of_ofText? hi
  · rintro rfl
    simp [Ident.make]

end RightOfWay
