import RightOfWay.Rules.Database

/-!
# Matching a rule against the facts

* `Binding` gives terms to variables, and `matchArgs` extends one so that the arguments of a pattern
  become a given tuple.
* `solutions` lists the bindings under which all literals of a body hold, taking them one by one.  A
  positive literal extends the binding in every way that the facts allow; a negative literal and a
  comparison keep it or drop it.  The variables that a binding leaves open match anything in a
  negative literal.
* `Rule.joinOrder` puts positive literals first, so that what the others refer to is bound.
-/

set_option autoImplicit false

namespace RightOfWay

/-- Terms for variables. -/
abbrev Binding := Std.ExtTreeMap String Term

/-- The term of an argument, if the binding gives it one. -/
def Binding.term? (b : Binding) : Arg → Option Term
  | .const t => some t
  | .var name => b[name]?

/-- The binding extended so that the arguments become the terms of the tuple,
if that is possible. -/
def matchArgs : List Arg → Tuple → Binding → Option Binding
  | .const c :: as, t :: ts, b => if c = t then matchArgs as ts b else none
  | .var name :: as, t :: ts, b =>
    match b[name]? with
    | some bound => if bound = t then matchArgs as ts b else none
    | none => matchArgs as ts (b.insert name t)
  | _, _, b => some b

/-- The bindings that extend the given one and under which all literals hold. -/
def solutions (db : Database) : List Literal → Binding → List Binding
  | [], b => [b]
  | .pos p :: ls, b =>
    ((db.tuples p.relation).filterMap (matchArgs p.args · b)).flatMap (solutions db ls)
  | .neg p :: ls, b =>
    if (db.tuples p.relation).any fun t ↦ (matchArgs p.args t b).isSome then []
    else solutions db ls b
  | .cmp lhs c rhs :: ls, b =>
    match b.term? lhs, b.term? rhs with
    | some l, some r => if c.holds l r then solutions db ls b else []
    | _, _ => []

namespace Rule

/-- The body with its positive literals in front, both groups in the order of the text. -/
def joinOrder (r : Rule) : List Literal :=
  r.body.filter Literal.isPositive ++ r.body.filter (! ·.isPositive)

theorem mem_joinOrder {r : Rule} {l : Literal} : l ∈ r.joinOrder ↔ l ∈ r.body := by
  cases h : l.isPositive <;> simp [joinOrder, h]

/-- The bindings under which the body holds. -/
def solutions (db : Database) (r : Rule) : List Binding := RightOfWay.solutions db r.joinOrder ∅

end Rule

/-- The tuple that a pattern becomes, if the binding leaves nothing open. -/
def ground (p : Pattern) (b : Binding) : Option Tuple := p.args.mapM b.term?

end RightOfWay
