import RightOfWay.Decimal.Integer

/-!
# JSON values

A `Json` value keeps a number as it was written, so that nothing about it is lost, and the members
of an object in the order of the text, repetitions included.

`Json.int64?` and `Json.float?` read numbers, and `Json.record?` reads the members with known names:
those of an object, of which each may occur once, or the elements of an array in their place.
-/

set_option autoImplicit false

namespace RightOfWay

/-- A JSON value. -/
inductive Json where
  | null
  | bool (value : Bool)
  /-- A number as it is written. -/
  | number (spelling : String)
  | string (text : String)
  /-- A string with one half of a surrogate pair, which stands for no text, or an object with such
  a name.  Only a reader that passes the value over can make something of it. -/
  | unpaired
  | array (items : List Json)
  | object (members : List (String × Json))

namespace Json

/-- A whole number. -/
def ofInt (n : Int) : Json := number (toString n)

/-- A string, or null. -/
def ofOption {α : Type} (f : α → Json) : Option α → Json
  | none => null
  | some a => f a

/-- The text of a string. -/
def text? : Json → Option String
  | string text => some text
  | _ => none

def items? : Json → Option (List Json)
  | array items => some items
  | _ => none

/-- The first member of an object with this name. -/
def member? (name : String) : Json → Option Json
  | object members => (members.find? (·.1 == name)).map (·.2)
  | _ => none

/-- The value of a whole number that fits sixty-four signed bits.  Minus zero is no whole number,
nor is one with decimal places or an exponent, even if they add nothing. -/
def int64? : Json → Option Int64
  | number spelling =>
    match spelling.toList with
    | ['-', '0'] => none
    | '-' :: digits => RightOfWay.int64? true digits
    | digits => RightOfWay.int64? false digits
  | _ => none

/-- The double nearest to a number. -/
def float? : Json → Option Float
  | number spelling => (Numeral.read? spelling.toList).map Numeral.toFloat
  | _ => none

/-- The members with these names, in the order of the names.  Other members do not matter.  Where
an array stands for the object, its elements are the members, and there may be no more of them. -/
def record? (names : List String) : Json → Option (List (Option Json))
  | object members => names.mapM fun name ↦
    match members.filter (·.1 == name) with
    | [] => some none
    | [(_, value)] => some (some value)
    | _ => none
  | array items =>
    if items.length ≤ names.length then
      some (items.map some ++ List.replicate (names.length - items.length) none)
    else none
  | _ => none

end Json
end RightOfWay
