import RightOfWay.Logic.Atom

/-!
# Rules

A program is a list of rules `head :- body.`  A rule without a body is a fact, and a rule without a
head is a constraint, which no answer may satisfy.

* `Arg`, `Pattern`, `Comparison` and `Literal` are the parts of a rule.
* `Comparison.holds` compares terms by the order that programs see: numbers, then symbols, then
  quoted strings by their contents.
* `Rule.unsafeVar?` finds a variable that no positive literal of the body binds.  A rule with none
  is safe: a match of its positive literals leaves nothing open.

A variable whose name starts with an underscore is anonymous.
-/

set_option autoImplicit false

namespace RightOfWay

/-- An argument of a pattern. -/
inductive Arg where
  | var (name : String)
  | const (term : Term)
  deriving DecidableEq

/-- A variable is anonymous if its name starts with an underscore. -/
def isAnonymous (name : String) : Bool := name.toList.head? == some '_'

/-- A predicate with a number of arguments.  Predicates of one name and different numbers of
arguments have nothing to do with each other. -/
structure Relation where
  name : String
  arity : Nat
  deriving DecidableEq

namespace Relation

instance : Ord Relation := ⟨compareLex (compareOn name) (compareOn arity)⟩

instance : Std.TransOrd Relation :=
  inferInstanceAs (Std.TransCmp (compareLex (compareOn name) (compareOn arity)))

instance : Std.LawfulEqOrd Relation where
  eq_of_compare {a b} h := by
    obtain ⟨hn, ha⟩ := compareLex_eq_eq.1 h
    cases a; cases b
    cases Std.LawfulEqOrd.eq_of_compare (α := String) hn
    cases Std.LawfulEqOrd.eq_of_compare (α := Nat) ha
    rfl

end Relation

/-- A predicate applied to variables and terms. -/
structure Pattern where
  predicate : String
  args : List Arg
  deriving DecidableEq

namespace Pattern

def relation (p : Pattern) : Relation := ⟨p.predicate, p.args.length⟩

/-- The variables of the pattern that are not anonymous. -/
def namedVars (p : Pattern) : List String :=
  p.args.filterMap fun
    | .var name => if isAnonymous name then none else some name
    | .const _ => none

/-- The first anonymous variable. -/
def anonymousVar? (p : Pattern) : Option String :=
  p.args.findSome? fun
    | .var name => if isAnonymous name then some name else none
    | .const _ => none

end Pattern

/-! ## Comparisons -/

namespace Term

/-- The text between the quotes of a quoted string. -/
def quoted? : Term → Option String
  | .int _ => none
  | .symbol text =>
    match text.toList with
    | '"' :: rest => if rest.getLast? = some '"' then some (String.ofList rest.dropLast) else none
    | _ => none

/-- Numbers stand before symbols, and symbols before quoted strings. -/
def kind (t : Term) : Nat :=
  match t with
  | .int _ => 0
  | .symbol _ => if t.quoted?.isSome then 2 else 1

/-- What symbols and quoted strings are compared by: the contents of a quoted string, the whole text
of another symbol. -/
def contents (t : Term) : String := t.quoted?.getD t.text

/-- The order that comparisons in rules use. -/
def compareInRules : Term → Term → Ordering :=
  compareLex (compareOn kind) (compareLex (compareOn number) (compareOn contents))

end Term

/-- A comparison of two terms. -/
inductive Comparison where
  | eq
  | ne
  | lt
  | le
  | gt
  | ge
  deriving DecidableEq

namespace Comparison

/-- Whether the comparison holds between two terms. -/
def holds (c : Comparison) (a b : Term) : Bool :=
  match c with
  | eq => Term.compareInRules a b == .eq
  | ne => Term.compareInRules a b != .eq
  | lt => Term.compareInRules a b == .lt
  | le => Term.compareInRules a b != .gt
  | gt => Term.compareInRules a b == .gt
  | ge => Term.compareInRules a b != .lt

end Comparison

/-! ## Rules -/

/-- An element of a rule's body. -/
inductive Literal where
  | pos (pattern : Pattern)
  | neg (pattern : Pattern)
  | cmp (lhs : Arg) (comparison : Comparison) (rhs : Arg)
  deriving DecidableEq

namespace Literal

/-- Whether the literal is a positive one, which binds variables. -/
def isPositive : Literal → Bool
  | pos _ => true
  | neg _ => false
  | cmp .. => false

end Literal

/-- A rule of a program, with the line on which it starts. -/
structure Rule where
  head : Option Pattern
  body : List Literal
  line : Nat
  deriving DecidableEq

namespace Rule

/-- The named variables that the positive literals bind. -/
def boundVars (r : Rule) : Std.ExtTreeSet String :=
  Std.ExtTreeSet.ofList <| r.body.flatMap fun
    | .pos p => p.namedVars
    | _ => []

/-- The variables that must be bound: the named ones of the head and of negative literals, and all
variables of comparisons. -/
def neededVars (r : Rule) : Std.ExtTreeSet String :=
  let ofArg : Arg → List String := fun
    | .var name => [name]
    | .const _ => []
  Std.ExtTreeSet.ofList <|
    (r.head.map Pattern.namedVars).getD [] ++ r.body.flatMap fun
      | .pos _ => []
      | .neg p => p.namedVars
      | .cmp lhs _ rhs => ofArg lhs ++ ofArg rhs

/-- A variable that makes the rule unsafe: the first anonymous variable of the head, or else the
least needed variable that is not bound. -/
def unsafeVar? (r : Rule) : Option String :=
  match r.head.bind Pattern.anonymousVar? with
  | some name => some name
  | none => r.neededVars.toList.find? fun name ↦ !r.boundVars.contains name

/-- The fact that states an atom. -/
def ofAtom (a : Atom) (line : Nat) : Rule := ⟨some ⟨a.predicate, a.args.map .const⟩, [], line⟩

end Rule
end RightOfWay
