import RightOfWay.Decimal.Integer

/-!
# YAML nodes

A `Yaml` node is a scalar, a list or a mapping.  A scalar is a text, and whether it was written
plain or between quotes decides what else it may mean.

`Scalar.meaning` is what a plain scalar means where nothing else is asked for: null, a truth value,
a number or its text.  The remaining functions read a node as something in particular.  An empty
value is an empty list and an empty mapping as well as an empty text.
-/

set_option autoImplicit false

namespace RightOfWay

/-- A text in a YAML document. -/
structure Scalar where
  text : String
  /-- Not written between quotes. -/
  plain : Bool
  deriving DecidableEq

/-- A part of a YAML document. -/
inductive Yaml where
  | scalar (scalar : Scalar)
  | list (items : List Yaml)
  | map (entries : List (Yaml × Yaml))

/-! ## Plain scalars -/

namespace Scalar

/-- The value of which nothing is written. -/
def empty : Scalar := ⟨"", true⟩

/-- Whether nothing is written. -/
def isEmpty (s : Scalar) : Bool := s.plain && s.text == ""

/-- Whether a plain text says that there is no value. -/
def saysNull (text : String) : Bool := ["", "~", "null", "Null", "NULL"].contains text

def isNull (s : Scalar) : Bool := s.plain && saysNull s.text

def saysBool (text : String) : Bool :=
  ["true", "True", "TRUE", "false", "False", "FALSE"].contains text

/-- The text behind a sign of its own, if that is the one in front. -/
def behind? (sign : Char) : List Char → Option (List Char)
  | c :: rest => if c = sign then some rest else none
  | [] => none

/-- Digits that start with a zero and go on are a text and no number. -/
def hasLeadingZero (digits : List Char) : Bool :=
  match digits with
  | '0' :: _ :: _ => digits.all Char.isDigit
  | _ => false

/-- The natural number written in some base, ten if no other is named. -/
def natural? (cs : List Char) : Option Nat :=
  match cs with
  | '0' :: 'x' :: digits => RightOfWay.natural? 16 digits
  | '0' :: 'o' :: digits => RightOfWay.natural? 8 digits
  | '0' :: 'b' :: digits => RightOfWay.natural? 2 digits
  | digits => if hasLeadingZero digits then none else RightOfWay.natural? 10 digits

/-- The natural number that a text means.  A plus sign may stand in front. -/
def unsigned? (text : String) : Option Nat := natural? ((behind? '+' text.toList).getD text.toList)

/-- The whole number that a text means. -/
def integer? (text : String) : Option Int :=
  match behind? '-' text.toList with
  | some digits => (natural? digits).map fun n ↦ -(n : Int)
  | none => (unsigned? text).map fun n ↦ (n : Int)

/-- The double that a text means.  It may be infinite or no number only if it says so. -/
def float? (text : String) : Option Float :=
  let unsigned := (behind? '+' text.toList).getD text.toList
  if [".inf", ".Inf", ".INF"].contains (String.ofList unsigned) then some (1.0 / 0.0)
  else if ["-.inf", "-.Inf", "-.INF"].contains text then some (-1.0 / 0.0)
  else if [".nan", ".NaN", ".NAN"].contains text then some (0.0 / 0.0)
  else if (behind? '+' text.toList).isSome && (behind? '-' unsigned).isSome then none
  else
    match Numeral.read? unsigned with
    | none => none
    | some n => if n.toFloat.isFinite then some n.toFloat else none

/-- What a plain scalar means where nothing else is asked for. -/
inductive Meaning where
  | null
  | bool
  | int (n : Int)
  /-- A whole number of more than sixty-four bits but not more than twice as many. -/
  | longInt
  | float (x : Float)
  | text

/-- What a plain text means. -/
def meaningOfPlain (text : String) : Meaning :=
  if saysNull text then .null
  else if saysBool text then .bool
  else
    let wide := integer? text |>.bind fun n ↦
      if -Int.pow 2 63 ≤ n ∧ n < Int.pow 2 64 then some (Meaning.int n)
      else if -Int.pow 2 127 ≤ n ∧ n < Int.pow 2 128 then some Meaning.longInt
      else none
    match wide with
    | some meaning => meaning
    | none =>
      let digits := (behind? '-' text.toList).getD ((behind? '+' text.toList).getD text.toList)
      if hasLeadingZero digits then .text
      else
        match float? text with
        | some x => .float x
        | none => .text

/-- What a scalar means where nothing else is asked for. -/
def meaning (s : Scalar) : Meaning := if s.plain then meaningOfPlain s.text else .text

end Scalar

/-! ## Reading nodes -/

namespace Yaml

/-- The value of which nothing is written. -/
def empty : Yaml := scalar .empty

/-- The text of any scalar. -/
def text? : Yaml → Option String
  | scalar s => some s.text
  | _ => none

/-- The double that a plain scalar means. -/
def float? : Yaml → Option Float
  | scalar s => if s.plain then Scalar.float? s.text else none
  | _ => none

/-- The natural number of sixty-four bits that a plain scalar means. -/
def word? : Yaml → Option Nat
  | scalar s =>
    if s.plain then
      (Scalar.unsigned? s.text).bind fun n ↦ if n < UInt64.size then some n else none
    else none
  | _ => none

/-- Another reading of a value that may be null. -/
def optional? {α : Type} (read? : Yaml → Option α) : Yaml → Option (Option α)
  | scalar s => if s.isNull then some none else (read? (scalar s)).map some
  | y => (read? y).map some

/-- The items of a list, each read in the same way. -/
def items? {α : Type} (read? : Yaml → Option α) : Yaml → Option (List α)
  | list items => items.mapM read?
  | scalar s => if s.isEmpty then some [] else none
  | map _ => none

/-- The scalar that a node is. -/
def scalar? : Yaml → Option Scalar
  | scalar s => some s
  | _ => none

/-- The entries of a mapping whose keys are scalars. -/
def entries? : Yaml → Option (List (Scalar × Yaml))
  | map entries => entries.mapM fun (key, value) ↦ key.scalar?.map (·, value)
  | scalar s => if s.isEmpty then some [] else none
  | list _ => none

/-- The values under these names, none of which may occur twice. -/
def values? (names : List String) (entries : List (Scalar × Yaml)) : Option (List (Option Yaml)) :=
  names.mapM fun name ↦
    match entries.filter (·.1.text == name) with
    | [] => some none
    | [(_, value)] => some (some value)
    | _ => none

/-- The values under these names in a mapping that has no others. -/
def record? (names : List String) (y : Yaml) : Option (List (Option Yaml)) := do
  let entries ← y.entries?
  if entries.all fun (key, _) ↦ names.contains key.text then values? names entries else none

/-- The values under these names in a mapping that may have others. -/
def openRecord? (names : List String) (y : Yaml) : Option (List (Option Yaml)) := do
  values? names (← y.entries?)

/-- A value that may be missing. -/
def orElse? {α : Type} (standard : α) (read? : Yaml → Option α) : Option Yaml → Option α
  | none => some standard
  | some y => read? y

end Yaml
end RightOfWay
