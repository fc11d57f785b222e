import RightOfWay.Json.Value

/-!
# Writing JSON

`Json.render` writes a value on one line without blanks.  Strings are written with the short escapes
where there are any, and other controls by their number.
-/

set_option autoImplicit false

namespace RightOfWay.Json

/-- One character as it stands between quotes. -/
def escape (c : Char) : List Char :=
  match c with
  | '"' => ['\\', '"']
  | '\\' => ['\\', '\\']
  | '\x08' => ['\\', 'b']
  | '\x0c' => ['\\', 'f']
  | '\n' => ['\\', 'n']
  | '\r' => ['\\', 'r']
  | '\t' => ['\\', 't']
  | c =>
    if c.toNat < 0x20 then
      ['\\', 'u', '0', '0', Nat.digitChar (c.toNat / 16), Nat.digitChar (c.toNat % 16)]
    else [c]

/-- The text between double quotes. -/
def quoted (text : String) : String := String.ofList ('"' :: text.toList.flatMap escape ++ ['"'])

mutual

/-- The value on one line. -/
def render : Json → String
  | null => "null"
  | bool true => "true"
  | bool false => "false"
  | number spelling => spelling
  | string text => quoted text
  | unpaired => "\"\""
  | array items => "[" ++ ",".intercalate (renderItems items) ++ "]"
  | object members => "\x7b" ++ ",".intercalate (renderMembers members) ++ "\x7d"

def renderItems : List Json → List String
  | [] => []
  | item :: items => item.render :: renderItems items

def renderMembers : List (String × Json) → List String
  | [] => []
  | (name, value) :: members => (quoted name ++ ":" ++ value.render) :: renderMembers members

end

end RightOfWay.Json
