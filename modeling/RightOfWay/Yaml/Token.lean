import RightOfWay.Yaml.Node
import RightOfWay.Yaml.ScalarText

/-!
# Tokens of YAML

`tokens` cuts a text into tokens.  Besides the signs of the text there are tokens that say where a
block list or mapping begins and ends, which follows from the columns, and where a key begins.  That
a node is a key shows only at the colon behind it, so while the text is scanned the last place where
a key may have begun is kept as a `Candidate`, one outside of brackets and one for each pair of
brackets that is open.  A key ends on the line where it began and is not long.

Anchors, tags, directives and block scalars are refused.
-/

set_option autoImplicit false

namespace RightOfWay.Yaml

/-- A token. -/
inductive Token where
  | scalar (scalar : Scalar)
  | dash
  /-- A key follows. -/
  | key
  /-- The colon behind a key. -/
  | value
  | comma
  | openList
  | closeList
  | openMap
  | closeMap
  | blockList
  | blockMap
  | blockEnd
  | documentStart
  | documentEnd
  deriving DecidableEq

/-- A place where a key may have begun. -/
structure Candidate where
  /-- The number of tokens in front of it. -/
  position : Nat
  /-- Nothing but a key may stand there. -/
  required : Bool
  place : Cursor

/-- The most bytes that a key may have, with the blanks behind it. -/
def keyLimit : Nat := 1024

/-- Whether what begins at the candidate can still be a key with a colon at the place. -/
def Candidate.reaches (k : Candidate) (p : Cursor) : Bool :=
  p.line ≤ k.place.line && p.offset ≤ k.place.offset + keyLimit

/-- How far a text has been scanned. -/
structure Scan where
  /-- The length of the text, which bounds every loop over it. -/
  size : Nat
  place : Cursor
  /-- The tokens so far, the last one first. -/
  found : List Token
  /-- The columns of the open blocks, the innermost first. -/
  blocks : List Nat
  /-- The candidate between the innermost brackets. -/
  candidate? : Option Candidate
  /-- The candidates around the open brackets, the innermost first. -/
  outer : List (Option Candidate)
  /-- A key may begin here. -/
  keyAllowed : Bool

namespace Scan

def start (text : String) : Scan := ⟨text.length, .start text, [], [], none, [], true⟩

/-- Whether a bracket is open. -/
def inBrackets (s : Scan) : Bool := !s.outer.isEmpty

/-- The scan with one more token of so many characters. -/
def put (s : Scan) (t : Token) (length : Nat) : Scan :=
  { s with found := t :: s.found, place := s.place.skip length }

/-! ## Blanks -/

/-- The place behind blanks, comments and line ends, and whether a key may begin there.  A mark of
the byte order may stand at the start of a line.  Outside brackets a tab may not stand where a key
could begin.  Every step takes some of the fuel. -/
def blanks (fuel : Nat) (inBrackets keyAllowed : Bool) (p : Cursor) : Cursor × Bool :=
  match fuel, p.rest with
  | fuel + 1, c :: _ =>
    if c = '\ufeff' ∧ p.column = 0 then blanks fuel inBrackets keyAllowed p.next
    else if c = ' ' ∨ c = '\t' ∧ (inBrackets || !keyAllowed) then
      blanks fuel inBrackets keyAllowed p.next
    else if c = '#' then blanks fuel inBrackets keyAllowed p.lineRest
    else if isBreak c then blanks fuel inBrackets (keyAllowed || !inBrackets) p.next
    else (p, keyAllowed)
  | _, _ => (p, keyAllowed)

/-- The scan at the next token. -/
def toToken (s : Scan) : Scan :=
  let (place, keyAllowed) := blanks s.size s.inBrackets s.keyAllowed s.place
  { s with place, keyAllowed }

/-! ## Keys and blocks -/

/-- The candidate, unless it is given up; one that had to be a key cannot be. -/
def keep? (kept : Bool) (candidate? : Option Candidate) : Option (Option Candidate) :=
  match candidate? with
  | none => some none
  | some k => if kept then some (some k) else if k.required then none else some none

/-- The scan without the candidate if it no longer reaches the place.  Those around open brackets
are looked at once the brackets are closed. -/
def dropStale (s : Scan) : Option Scan := do
  return { s with candidate? := ← keep? (s.candidate?.any (·.reaches s.place)) s.candidate? }

/-- The scan without the candidate. -/
def dropCandidate (s : Scan) : Option Scan := do
  return { s with candidate? := ← keep? false s.candidate? }

/-- The scan with the place as a candidate, if a key may begin there. -/
def addCandidate (s : Scan) : Option Scan := do
  if s.keyAllowed then
    let s ← s.dropCandidate
    let required := !s.inBrackets && s.blocks.head? == some s.place.column
    return { s with candidate? := some ⟨s.found.length, required, s.place⟩ }
  else return s

/-- Whether a block in the column lies within the open ones. -/
def opensBlock (s : Scan) (column : Nat) : Bool :=
  !s.inBrackets && s.blocks.head?.all (· < column)

/-- The scan with some tokens put in where a number of others have been found. -/
def insert (s : Scan) (position : Nat) (ts : List Token) : Scan :=
  let after := s.found.length - position
  { s with found := s.found.take after ++ ts.reverse ++ s.found.drop after }

/-- The scan with a block in the column, begun by the token where a number of others have been
found, unless there is one already. -/
def openBlock (s : Scan) (column position : Nat) (t : Token) : Scan :=
  if s.opensBlock column then { s.insert position [t] with blocks := column :: s.blocks } else s

/-- The scan without the blocks for which the test holds.  None ends between brackets. -/
def closeBlocks (s : Scan) (ended : Nat → Bool) : Scan :=
  if s.inBrackets then s
  else
    let ends := (s.blocks.takeWhile ended).length
    { s with found := List.replicate ends .blockEnd ++ s.found, blocks := s.blocks.drop ends }

/-! ## Signs -/

/-- Three dashes or dots. -/
def documentMark (s : Scan) (t : Token) : Option Scan := do
  let s ← (s.closeBlocks fun _ ↦ true).dropCandidate
  return { s.put t 3 with keyAllowed := false }

def openBracket (s : Scan) (t : Token) : Option Scan := do
  let s ← s.addCandidate
  return { s.put t 1 with candidate? := none, outer := s.candidate? :: s.outer, keyAllowed := true }

def closeBracket (s : Scan) (t : Token) : Option Scan := do
  let s := { (← s.dropCandidate).put t 1 with keyAllowed := false }
  match s.outer with
  | candidate? :: outer => return { s with candidate?, outer }
  | [] => return s

def comma (s : Scan) : Option Scan := do
  return { (← s.dropCandidate).put .comma 1 with keyAllowed := true }

/-- The scan with a block begun at the place, if one may begin there. -/
def blockHere (s : Scan) (t : Token) : Option Scan :=
  if s.inBrackets then some s
  else if s.keyAllowed then some (s.openBlock s.place.column s.found.length t)
  else none

def dash (s : Scan) : Option Scan := do
  let s ← (← s.blockHere .blockList).dropCandidate
  return { s.put .dash 1 with keyAllowed := true }

/-- A question mark, behind which stands a key. -/
def question (s : Scan) : Option Scan := do
  let s ← (← s.blockHere .blockMap).dropCandidate
  return { s.put .key 1 with keyAllowed := !s.inBrackets }

/-- A colon.  What began at the candidate is a key, and no key follows it on its line. -/
def colon (s : Scan) : Option Scan := do
  match s.candidate? with
  | some k =>
    let s := (s.insert k.position [.key]).openBlock k.place.column k.position .blockMap
    return { s.put .value 1 with candidate? := none, keyAllowed := false }
  | none =>
    let s ← s.blockHere .blockMap
    return { s.put .value 1 with keyAllowed := !s.inBrackets }

/-! ## Scalars -/

/-- The scan behind a scalar between quotes. -/
def quoted (s : Scan) : Option Scan := do
  let s ← s.addCandidate
  let (text, place) ← quotedText s.size s.place
  return { s with place, found := .scalar ⟨text, false⟩ :: s.found, keyAllowed := false }

/-- The scan behind a plain scalar.  One that goes on over line ends must stay to the right of the
block that it is in. -/
def plain (s : Scan) : Option Scan := do
  let s ← s.addCandidate
  let margin := match s.blocks with
    | [] => 0
    | column :: _ => column + 1
  let (text, keyAllowed, place) ← plainText s.size margin s.inBrackets s.place
  return { s with place, found := .scalar ⟨text, true⟩ :: s.found, keyAllowed }

/-! ## Tokens -/

/-- The characters that nothing starts with. -/
def isReserved (c : Char) : Bool := "&*!|>%@\x60".toList.contains c

/-- The scan behind the next token, which starts with the character. -/
def token (s : Scan) (c : Char) (rest : List Char) : Option Scan :=
  if s.place.atDocumentMark then s.documentMark (if c = '-' then .documentStart else .documentEnd)
  else
    match c with
    | '[' => s.openBracket .openList
    | '\x7b' => s.openBracket .openMap
    | ']' => s.closeBracket .closeList
    | '\x7d' => s.closeBracket .closeMap
    | ',' => s.comma
    | '\'' => s.quoted
    | '"' => s.quoted
    | _ =>
      let apart := atBlank rest
      if c = '-' ∧ apart then s.dash
      else if c = '?' ∧ (s.inBrackets ∨ apart) then s.question
      else if c = ':' ∧ (s.inBrackets ∨ apart) then s.colon
      else if isReserved c ∨ isBlank c then none
      else s.plain

/-- The tokens of the text.  Every token takes some of the fuel. -/
def run (fuel : Nat) (s : Scan) : Option (List Token) :=
  match fuel with
  | 0 => none
  | fuel + 1 => do
    let s ← s.toToken.dropStale
    let s := s.closeBlocks (s.place.column < ·)
    match s.place.rest with
    | [] => return (← (s.closeBlocks fun _ ↦ true).dropCandidate).found.reverse
    | c :: rest => run fuel (← s.token c rest)

end Scan

/-- The tokens of a text. -/
def tokens (text : String) : Option (List Token) :=
  if text.toList.all isAllowed then (Scan.start text).run (text.length + 1) else none

end RightOfWay.Yaml
