import RightOfWay.Json.Value

/-!
# Reading JSON

`Json.read?` reads a text that consists of one JSON value.  It accepts what the standard allows and
nothing else: no comments, no trailing commas, no numbers with a leading zero or a bare point.

A string is read in two steps.  `pieces` takes its escapes apart, and `joinPieces` puts together the
surrogate pairs among them.
-/

set_option autoImplicit false

namespace RightOfWay.Json

/-- A blank of JSON. -/
def isSpace (c : Char) : Bool := c == ' ' || c == '\n' || c == '\t' || c == '\r'

def skipSpace (cs : List Char) : List Char := cs.dropWhile isSpace

/-! ## Strings -/

/-- A piece of a string: a character, or a UTF-16 unit written by its number. -/
inductive Piece where
  | char (c : Char)
  | unit (n : Nat)

/-- The character that an escape of one letter stands for. -/
def escaped? : Char → Option Char
  | '"' => some '"'
  | '\\' => some '\\'
  | '/' => some '/'
  | 'b' => some '\x08'
  | 'f' => some '\x0c'
  | 'n' => some '\n'
  | 'r' => some '\r'
  | 't' => some '\t'
  | _ => none

/-- The pieces of a string up to its closing quote, and the text behind that. -/
def pieces : List Char → Option (List Piece × List Char)
  | '"' :: rest => some ([], rest)
  | '\\' :: 'u' :: a :: b :: c :: d :: rest =>
    match natural? 16 [a, b, c, d], pieces rest with
    | some n, some (ps, rest) => some (.unit n :: ps, rest)
    | _, _ => none
  | '\\' :: c :: rest =>
    match escaped? c, pieces rest with
    | some c, some (ps, rest) => some (.char c :: ps, rest)
    | _, _ => none
  | c :: rest =>
    if c.toNat < 0x20 then none
    else (pieces rest).map fun (ps, rest) ↦ (.char c :: ps, rest)
  | [] => none

def isHighSurrogate (n : Nat) : Bool := 0xD800 ≤ n && n < 0xDC00

def isLowSurrogate (n : Nat) : Bool := 0xDC00 ≤ n && n < 0xE000

/-- The characters that the pieces make, unless half of a surrogate pair stands alone. -/
def joinPieces : List Piece → Option (List Char)
  | [] => some []
  | .char c :: ps => (joinPieces ps).map (c :: ·)
  | .unit n :: .unit m :: ps =>
    if isHighSurrogate n && isLowSurrogate m then
      (joinPieces ps).map (Char.ofNat (0x10000 + (n - 0xD800) * 0x400 + (m - 0xDC00)) :: ·)
    else if isHighSurrogate n || isLowSurrogate n then none
    else (joinPieces (.unit m :: ps)).map (Char.ofNat n :: ·)
  | .unit n :: ps =>
    if isHighSurrogate n || isLowSurrogate n then none
    else (joinPieces ps).map (Char.ofNat n :: ·)

/-- The value of the string whose opening quote has been read, and the text behind it. -/
def stringBody (cs : List Char) : Option (Json × List Char) :=
  (pieces cs).map fun (ps, rest) ↦
    match joinPieces ps with
    | some text => (string (String.ofList text), rest)
    | none => (unpaired, rest)

/-! ## Numbers -/

/-- A non-empty run of digits at the front, and the text behind it. -/
def digits (cs : List Char) : Option (List Char × List Char) :=
  let run := cs.takeWhile Char.isDigit
  if run = [] then none else some (run, cs.dropWhile Char.isDigit)

/-- The whole part of a number: zero, or digits that start with another one. -/
def wholePart (cs : List Char) : Option (List Char × List Char) :=
  match digits cs with
  | some ('0' :: _ :: _, _) => none
  | found => found

/-- The decimal places of a number with their point, or nothing. -/
def places (cs : List Char) : Option (List Char × List Char) :=
  match cs with
  | '.' :: rest => (digits rest).map fun (run, rest) ↦ ('.' :: run, rest)
  | rest => some ([], rest)

/-- The exponent of a number with its letter, or nothing. -/
def exponentPart (cs : List Char) : Option (List Char × List Char) :=
  match cs with
  | c :: rest =>
    if c == 'e' || c == 'E' then
      match rest with
      | '+' :: rest => (digits rest).map fun (run, rest) ↦ (c :: '+' :: run, rest)
      | '-' :: rest => (digits rest).map fun (run, rest) ↦ (c :: '-' :: run, rest)
      | rest => (digits rest).map fun (run, rest) ↦ (c :: run, rest)
    else some ([], cs)
  | [] => some ([], [])

/-- The number at the front, and the text behind it. -/
def numberPart (cs : List Char) : Option (Json × List Char) := do
  let (sign, rest) := match cs with
    | '-' :: rest => (['-'], rest)
    | rest => ([], rest)
  let (whole, rest) ← wholePart rest
  let (decimals, rest) ← places rest
  let (power, rest) ← exponentPart rest
  return (number (String.ofList (sign ++ whole ++ decimals ++ power)), rest)

/-! ## Values -/

/-- The object with these members, whose names must be texts for it to be one. -/
def ofMembers (members : List (Option String × Json)) : Json :=
  match members.mapM fun (name?, value) ↦ name?.map (·, value) with
  | some members => object members
  | none => unpaired

/-- The text behind a word that stands at the front. -/
def afterWord? (word : String) (cs : List Char) : Option (List Char) :=
  if word.toList <+: cs then some (cs.drop word.toList.length) else none

mutual

/-- The value at the front, and the text behind it.  Every nested value takes some of the fuel, and
no text is nested deeper than it is long. -/
def value (fuel : Nat) (cs : List Char) : Option (Json × List Char) :=
  match fuel with
  | 0 => none
  | fuel + 1 =>
    match skipSpace cs with
    | '"' :: rest => stringBody rest
    | '[' :: rest =>
      match skipSpace rest with
      | ']' :: rest => some (array [], rest)
      | rest => (elements fuel rest).map fun (items, rest) ↦ (array items, rest)
    | '\x7b' :: rest =>
      match skipSpace rest with
      | '\x7d' :: rest => some (object [], rest)
      | rest => (members fuel rest).map fun (members, rest) ↦ (ofMembers members, rest)
    | 't' :: rest => (afterWord? "rue" rest).map fun rest ↦ (bool true, rest)
    | 'f' :: rest => (afterWord? "alse" rest).map fun rest ↦ (bool false, rest)
    | 'n' :: rest => (afterWord? "ull" rest).map fun rest ↦ (null, rest)
    | rest => numberPart rest

/-- The elements of an array up to its closing bracket, and the text behind that. -/
def elements (fuel : Nat) (cs : List Char) : Option (List Json × List Char) :=
  match fuel with
  | 0 => none
  | fuel + 1 => do
    let (item, rest) ← value fuel cs
    match skipSpace rest with
    | ',' :: rest => (elements fuel rest).map fun (items, rest) ↦ (item :: items, rest)
    | ']' :: rest => some ([item], rest)
    | _ => none

/-- The members of an object up to its closing brace, and the text behind that. -/
def members (fuel : Nat) (cs : List Char) :
    Option (List (Option String × Json) × List Char) :=
  match fuel with
  | 0 => none
  | fuel + 1 => do
    let (name, rest) ← (match skipSpace cs with
      | '"' :: rest => stringBody rest
      | _ => none)
    let name? := name.text?
    let rest ← (match skipSpace rest with
      | ':' :: rest => some rest
      | _ => none)
    let (item, rest) ← value fuel rest
    match skipSpace rest with
    | ',' :: rest => (members fuel rest).map fun (items, rest) ↦ ((name?, item) :: items, rest)
    | '\x7d' :: rest => some ([(name?, item)], rest)
    | _ => none

end

/-- The value that the text consists of. -/
def read? (text : String) : Option Json :=
  match value (2 * text.toList.length + 1) text.toList with
  | some (v, rest) => if skipSpace rest = [] then some v else none
  | none => none

end RightOfWay.Json
