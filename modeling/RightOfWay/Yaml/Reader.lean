import RightOfWay.Yaml.Token

/-!
# Reading YAML

`Yaml.read?` reads a text that consists of one document.  Its tokens say where lists and mappings
begin and end, and this module puts the nodes together.  Where nothing stands for a node, it is
empty.  The list under a key may stand in the column of the key, and then it has no end of its own.
-/

set_option autoImplicit false

namespace RightOfWay.Yaml

/-- The signs behind which an item of a block list has nothing in it. -/
def endsItem : Token → Bool
  | .dash | .blockEnd => true
  | _ => false

/-- The signs behind which a part of a block mapping has nothing in it. -/
def endsPart : Token → Bool
  | .key | .value | .blockEnd => true
  | _ => false

/-- The signs before which a value has nothing in it between brackets of which this one closes. -/
def endsFlowValue (close t : Token) : Bool := t == .comma || t == close

/-- The signs before which a key has nothing in it between brackets of which this one closes. -/
def endsFlowKey (close t : Token) : Bool := t == .value || endsFlowValue close t

mutual

/-- The node at the front, and the tokens behind it.  Every nested node and every further part of
one takes some of the fuel, and there are no more of them than tokens. -/
def node (fuel : Nat) (underKey : Bool) (ts : List Token) : Option (Yaml × List Token) :=
  match fuel, ts with
  | _ + 1, .scalar s :: rest => some (scalar s, rest)
  | fuel + 1, .openList :: rest => (flowItems fuel true rest).map fun (ys, rest) ↦ (list ys, rest)
  | fuel + 1, .openMap :: rest => (flowEntries fuel true rest).map fun (es, rest) ↦ (map es, rest)
  | fuel + 1, .blockList :: rest => (blockItems fuel rest).map fun (ys, rest) ↦ (list ys, rest)
  | fuel + 1, .blockMap :: rest => (blockEntries fuel rest).map fun (es, rest) ↦ (map es, rest)
  | fuel + 1, .dash :: rest =>
    if underKey then (itemsUnderKey fuel (.dash :: rest)).map fun (ys, rest) ↦ (list ys, rest)
    else none
  | _, _ => none

/-- The node at the front, or an empty one before a token for which the test holds. -/
def nodeUnless (ends : Token → Bool) (fuel : Nat) (underKey : Bool) (ts : List Token) :
    Option (Yaml × List Token) :=
  match fuel, ts with
  | fuel + 1, t :: rest =>
    if ends t then some (empty, t :: rest) else node fuel underKey (t :: rest)
  | _, _ => none

/-- The items up to the end of a block list. -/
def blockItems (fuel : Nat) (ts : List Token) : Option (List Yaml × List Token) :=
  match fuel, ts with
  | _ + 1, .blockEnd :: rest => some ([], rest)
  | fuel + 1, .dash :: rest => do
    let (item, rest) ← nodeUnless endsItem fuel false rest
    let (items, rest) ← blockItems fuel rest
    return (item :: items, rest)
  | _, _ => none

/-- The items of a list in the column of the key above it. -/
def itemsUnderKey (fuel : Nat) (ts : List Token) : Option (List Yaml × List Token) :=
  match fuel, ts with
  | fuel + 1, .dash :: rest => do
    let (item, rest) ← nodeUnless (fun t ↦ endsItem t || endsPart t) fuel false rest
    let (items, rest) ← itemsUnderKey fuel rest
    return (item :: items, rest)
  | _ + 1, ts => some ([], ts)
  | _, _ => none

/-- The entries up to the end of a block mapping. -/
def blockEntries (fuel : Nat) (ts : List Token) : Option (List (Yaml × Yaml) × List Token) :=
  match fuel, ts with
  | _ + 1, .blockEnd :: rest => some ([], rest)
  | fuel + 1, .key :: rest => do
    let (key, rest) ← nodeUnless endsPart fuel true rest
    let (value, rest) ← (match rest with
      | .value :: rest => nodeUnless endsPart fuel true rest
      | rest => some (empty, rest))
    let (entries, rest) ← blockEntries fuel rest
    return ((key, value) :: entries, rest)
  | _, _ => none

/-- The value behind a key between brackets of which this one closes, if there is a value. -/
def flowValue (close : Token) (fuel : Nat) (ts : List Token) : Option (Yaml × List Token) :=
  match fuel, ts with
  | fuel + 1, .value :: rest => nodeUnless (endsFlowValue close) fuel false rest
  | _ + 1, ts => some (empty, ts)
  | _, _ => none

/-- The item at the front of a list between brackets.  A key with its value is a mapping of one
entry, and where a key is announced but missing, the token in its place is passed over. -/
def flowItem (fuel : Nat) (ts : List Token) : Option (Yaml × List Token) :=
  match fuel, ts with
  | fuel + 1, .key :: t :: rest => do
    let (key, rest) ← (if endsFlowKey .closeList t then some (empty, rest)
      else node fuel false (t :: rest))
    let (value, rest) ← flowValue .closeList fuel rest
    return (map [(key, value)], rest)
  | fuel + 1, ts => node fuel false ts
  | _, _ => none

/-- The items up to the end of a list between brackets.  All but the first have a comma in front of
them, and a comma may stand behind the last. -/
def flowItems (fuel : Nat) (first : Bool) (ts : List Token) : Option (List Yaml × List Token) :=
  match fuel, ts with
  | _ + 1, .closeList :: rest => some ([], rest)
  | fuel + 1, ts =>
    match first, ts with
    | false, .comma :: .closeList :: rest => some ([], rest)
    | false, .comma :: rest => do
      let (item, rest) ← flowItem fuel rest
      let (items, rest) ← flowItems fuel false rest
      return (item :: items, rest)
    | false, _ => none
    | true, ts => do
      let (item, rest) ← flowItem fuel ts
      let (items, rest) ← flowItems fuel false rest
      return (item :: items, rest)
  | _, _ => none

/-- The entry at the front of a mapping between brackets.  A node with no colon behind it is a key
with nothing under it. -/
def flowEntry (fuel : Nat) (ts : List Token) : Option ((Yaml × Yaml) × List Token) :=
  match fuel, ts with
  | fuel + 1, .key :: rest => do
    let (key, rest) ← nodeUnless (endsFlowKey .closeMap) fuel false rest
    let (value, rest) ← flowValue .closeMap fuel rest
    return ((key, value), rest)
  | fuel + 1, ts => (node fuel false ts).map fun (key, rest) ↦ ((key, empty), rest)
  | _, _ => none

/-- The entries up to the end of a mapping between brackets. -/
def flowEntries (fuel : Nat) (first : Bool) (ts : List Token) :
    Option (List (Yaml × Yaml) × List Token) :=
  match fuel, ts with
  | _ + 1, .closeMap :: rest => some ([], rest)
  | fuel + 1, ts =>
    match first, ts with
    | false, .comma :: .closeMap :: rest => some ([], rest)
    | false, .comma :: rest => do
      let (entry, rest) ← flowEntry fuel rest
      let (entries, rest) ← flowEntries fuel false rest
      return (entry :: entries, rest)
    | false, _ => none
    | true, ts => do
      let (entry, rest) ← flowEntry fuel ts
      let (entries, rest) ← flowEntries fuel false rest
      return (entry :: entries, rest)
  | _, _ => none

end

/-! ## Documents -/

/-- Whether a document ends before the tokens. -/
def atDocumentEnd : List Token → Bool
  | [] => true
  | t :: _ => t == .documentStart || t == .documentEnd

/-- The node that the tokens consist of. -/
def document? (ts : List Token) : Option Yaml := do
  let fuel := 4 * ts.length + 4
  let (y, rest) ← (match ts with
    | [] => some (empty, [])
    | .documentStart :: rest =>
      if atDocumentEnd rest then some (empty, rest) else node fuel false rest
    | ts => node fuel false ts)
  if rest.all (· == .documentEnd) then some y else none

/-- The document that the text consists of; one of which nothing is written is an empty value. -/
def read? (text : String) : Option Yaml := (tokens text).bind document?

end RightOfWay.Yaml
