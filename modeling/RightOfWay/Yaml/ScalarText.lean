import RightOfWay.Decimal.Integer
import RightOfWay.Yaml.Cursor

/-!
# The texts of YAML scalars

A scalar is written plain or between quotes, and may go on over line ends.  `plainText` and
`quotedText` read the text of one that starts at a place.
-/

set_option autoImplicit false

namespace RightOfWay.Yaml

open RightOfWay.Yaml.Cursor (Gap)

/-! ## Plain scalars -/

/-- Whether the character ends a plain scalar between brackets. -/
def isBracketSign (c : Char) : Bool := ",[]\x7b\x7d".toList.contains c

/-- The number of characters in the word at the front.  A colon before a blank ends it.  Between
brackets a comma or a bracket ends it too, and no colon may stand before one of these. -/
def wordLength (inBrackets : Bool) : List Char → Option Nat
  | [] => some 0
  | c :: rest =>
    if atBlank [c] then some 0
    else if inBrackets && c == ':' && rest.head?.any (fun d ↦ isBracketSign d || d == '?') then
      none
    else if c == ':' && atBlank rest then some 0
    else if inBrackets && isBracketSign c then some 0
    else (wordLength inBrackets rest).map (· + 1)

/-- The rest of a plain scalar behind a gap, whether a gap behind it crosses lines, and the place
that is reached.  The gap belongs to the scalar only if a word follows that is not left of the
margin.  Every word takes some of the fuel. -/
def plainRest (fuel margin : Nat) (inBrackets : Bool) (g : Gap) (p : Cursor) :
    Option (List Char × Bool × Cursor) :=
  match fuel with
  | 0 => none
  | fuel + 1 =>
    if p.atDocumentMark || p.rest.head? == some '#' then some ([], g.crosses, p)
    else do
      let n ← wordLength inBrackets p.rest
      if n = 0 then some ([], g.crosses, p)
      else
        let text := g.text ++ p.rest.take n
        let p := p.skip n
        let (g, p) ← p.gap fuel margin false
        if g.crosses && !inBrackets && p.column < margin then some (text, true, p)
        else
          (plainRest fuel margin inBrackets g p).map fun (more, crosses, p) ↦
            (text ++ more, crosses, p)

/-- The text of the plain scalar at the place, whether the line ends behind it, and the place that
is reached.  The size is that of the whole text. -/
def plainText (size margin : Nat) (inBrackets : Bool) (p : Cursor) :
    Option (String × Bool × Cursor) :=
  (plainRest (size + 1) margin inBrackets .none p).map fun (text, crosses, p) ↦
    (String.ofList text, crosses, p)

/-! ## Scalars between quotes -/

/-- The character that an escape of one letter stands for. -/
def escaped? : Char → Option Char
  | '0' => some '\x00'
  | 'a' => some '\x07'
  | 'b' => some '\x08'
  | 't' => some '\t'
  | '\t' => some '\t'
  | 'n' => some '\n'
  | 'v' => some '\x0b'
  | 'f' => some '\x0c'
  | 'r' => some '\r'
  | 'e' => some '\x1b'
  | ' ' => some ' '
  | '"' => some '"'
  | '/' => some '/'
  | '\\' => some '\\'
  | 'N' => some '\x85'
  | '_' => some '\xa0'
  | 'L' => some '\u2028'
  | 'P' => some '\u2029'
  | _ => none

/-- The character with the code point that hexadecimal digits give. -/
def coded? (digits : List Char) : Option Char :=
  (RightOfWay.natural? 16 digits).bind fun n ↦
    if n < 0xD800 ∨ 0xE000 ≤ n ∧ n < 0x110000 then some (Char.ofNat n) else none

/-- The character that an escape stands for, and the number of characters that it is written with.
The text begins behind the backslash. -/
def escape? : List Char → Option (Char × Nat)
  | 'x' :: rest => if rest.length < 2 then none else (coded? (rest.take 2)).map (·, 4)
  | 'u' :: rest => if rest.length < 4 then none else (coded? (rest.take 4)).map (·, 6)
  | 'U' :: rest => if rest.length < 8 then none else (coded? (rest.take 8)).map (·, 10)
  | c :: _ => (escaped? c).map (·, 2)
  | [] => none

/-- The text up to the closing quote, and the place behind that.  A single quote that is written
twice stands for itself.  Between double quotes, a line end behind a backslash does not count.
Every step takes some of the fuel. -/
def quotedRest (fuel : Nat) (mark : Char) (p : Cursor) : Option (List Char × Cursor) :=
  match fuel, p.rest with
  | fuel + 1, c :: rest =>
    let put (text : List Char) (read : Option (List Char × Cursor)) :
        Option (List Char × Cursor) :=
      read.map fun (more, p) ↦ (text ++ more, p)
    if p.atDocumentMark then none
    else if atBlank [c] then do
      let (g, p) ← p.gap (fuel + 1) 0 false
      put g.text (quotedRest fuel mark p)
    else if c = mark then
      if mark = '\'' ∧ rest.head? = some mark then put [mark] (quotedRest fuel mark (p.skip 2))
      else some ([], p.next)
    else if mark = '"' ∧ c = '\\' then
      if rest.head?.any isBreak then do
        let p := p.skip 2
        let (g, p) ← p.gap fuel 0 true
        put g.breaks (quotedRest fuel mark p)
      else do
        let (d, n) ← escape? rest
        put [d] (quotedRest fuel mark (p.skip n))
    else put [c] (quotedRest fuel mark p.next)
  | _, _ => none

/-- The text between quotes at the place, and the place behind them.  The size is that of the whole
text. -/
def quotedText (size : Nat) (p : Cursor) : Option (String × Cursor) :=
  match p.rest with
  | [] => none
  | mark :: _ => (quotedRest size mark p.next).map fun (text, p) ↦ (String.ofList text, p)

end RightOfWay.Yaml
