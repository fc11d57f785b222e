/-!
# Places in a YAML text

A `Cursor` is a place in a text with what follows there.  It counts lines, columns and bytes from
zero.  A carriage return with a line feed behind it is one line end.
-/

set_option autoImplicit false

namespace RightOfWay.Yaml

/-! ## Characters -/

/-- The characters that may occur in a document. -/
def isAllowed (c : Char) : Bool :=
  let n := c.toNat
  n == 0x9 || n == 0xA || n == 0xD || (0x20 ≤ n && n ≤ 0x7E) || n == 0x85 ||
    (0xA0 ≤ n && n ≤ 0xFFFD) || 0x10000 ≤ n

/-- The characters that end a line. -/
def isBreak (c : Char) : Bool :=
  c == '\n' || c == '\r' || c == '\x85' || c == '\u2028' || c == '\u2029'

/-- The character that a line end leaves in a text. -/
def lineEnd (c : Char) : Char := if c == '\u2028' || c == '\u2029' then c else '\n'

def isBlank (c : Char) : Bool := c == ' ' || c == '\t'

/-- Whether a line ends here or goes on with a blank. -/
def atBlank : List Char → Bool
  | [] => true
  | c :: _ => isBlank c || isBreak c

/-! ## Places -/

/-- A place in a text. -/
structure Cursor where
  line : Nat
  column : Nat
  /-- The number of bytes in front of the place. -/
  offset : Nat
  /-- The text from the place on. -/
  rest : List Char

namespace Cursor

/-- The place in front of a text. -/
def start (text : String) : Cursor := ⟨0, 0, 0, text.toList⟩

/-- The place behind the next character. -/
def next (p : Cursor) : Cursor :=
  match p.rest with
  | [] => p
  | '\r' :: '\n' :: rest => ⟨p.line + 1, 0, p.offset + 2, rest⟩
  | c :: rest =>
    if isBreak c then ⟨p.line + 1, 0, p.offset + c.utf8Size, rest⟩
    else ⟨p.line, p.column + 1, p.offset + c.utf8Size, rest⟩

/-- The place behind some more characters. -/
def skip (p : Cursor) : Nat → Cursor
  | 0 => p
  | n + 1 => p.next.skip n

/-- Whether a document starts or ends here, as three dashes or dots at the start of a line say. -/
def atDocumentMark (p : Cursor) : Bool :=
  p.column == 0 && ("---".toList <+: p.rest || "...".toList <+: p.rest) && atBlank (p.rest.drop 3)

/-- The place at the end of the line. -/
def lineRest (p : Cursor) : Cursor := p.skip (p.rest.takeWhile fun c ↦ !isBreak c).length

/-! ## Gaps -/

/-- What stands between two words of a scalar. -/
structure Gap where
  /-- The blanks on the line of the first word. -/
  blanks : List Char
  /-- The line ends. -/
  breaks : List Char

/-- The gap with nothing in it. -/
def Gap.none : Gap := ⟨[], []⟩

/-- Whether the second word is on another line than the first. -/
def Gap.crosses (g : Gap) : Bool := !g.breaks.isEmpty

/-- What the gap is in the text of the scalar.  A line end on its own is a blank, and of several the
first one does not count, unless it is a separator of its own kind. -/
def Gap.text (g : Gap) : List Char :=
  match g.breaks with
  | [] => g.blanks
  | ['\n'] => [' ']
  | '\n' :: more => more
  | breaks => breaks

/-- The gap at the place, and the place behind it.  Where lines have been crossed, no tab may stand
left of the margin.  Every step takes some of the fuel, of which no more is needed than there are
characters. -/
def gap (fuel margin : Nat) (crossed : Bool) (p : Cursor) : Option (Gap × Cursor) :=
  match fuel, p.rest with
  | fuel + 1, c :: _ =>
    if isBlank c then
      if crossed && c == '\t' && p.column < margin then Option.none
      else (gap fuel margin crossed p.next).map fun (g, p) ↦
        (if crossed then g else { g with blanks := c :: g.blanks }, p)
    else if isBreak c then
      (gap fuel margin true p.next).map fun (g, p) ↦
        ({ g with breaks := lineEnd c :: g.breaks }, p)
    else some (.none, p)
  | _, _ => some (.none, p)

end Cursor
end RightOfWay.Yaml
