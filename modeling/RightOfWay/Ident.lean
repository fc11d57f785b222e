import Std.Data.ExtTreeMap

/-!
# Identifiers

Vehicles, forks, exits and lanes carry names, and rules speak of them as constants.

* `Ident r` is a name in the role `r`: one or more ASCII letters, digits and underscores.
* `Ident.constant` puts the initial of the role before the name, as in `v_car7`, so that constants
  of different roles never meet (`Ident.ofConstant?_constant`, `Role.eq_of_initials_append`).
* `Ident.between` names the lane from a fork to an exit.  Different pairs may share a lane name.

Identifiers are ordered as texts, by code point.
-/

set_option autoImplicit false

namespace RightOfWay

/-- What an identifier names. -/
inductive Role where
  | vehicle
  | fork
  | exit
  | lane
  deriving DecidableEq, Repr

namespace Role

/-- The word for the role. -/
def label : Role → String
  | vehicle => "vehicle"
  | fork => "fork"
  | exit => "exit"
  | lane => "lane"

/-- What stands before a name of this role in a constant. -/
def initials : Role → List Char
  | vehicle => ['v', '_']
  | fork => ['f', '_']
  | exit => ['e', '_']
  | lane => ['l', '_']

/-- The initials tell the roles apart. -/
theorem eq_of_initials_append {r s : Role} {a b : List Char}
    (h : r.initials ++ a = s.initials ++ b) : r = s := by
  cases r <;> cases s <;> first | rfl | simp [initials] at h

end Role

/-- A character of a name. -/
def isNameChar (c : Char) : Bool := c.isAlphanum || c == '_'

/-- A name is made of one or more name characters. -/
def IsName (text : String) : Prop := text.toList ≠ [] ∧ ∀ c ∈ text.toList, isNameChar c = true

instance (text : String) : Decidable (IsName text) :=
  decidable_of_iff (!text.toList.isEmpty && text.toList.all isNameChar) (by simp [IsName])

/-- A name in the given role. -/
structure Ident (r : Role) where
  text : String
  isName : IsName text
  deriving DecidableEq

abbrev VehicleId := Ident .vehicle
abbrev ForkId := Ident .fork
abbrev ExitId := Ident .exit
abbrev LaneId := Ident .lane

namespace Ident

variable {r : Role}

theorem ext_text {i j : Ident r} (h : i.text = j.text) : i = j := by
  cases i; cases j; cases h; rfl

/-! ## Order -/

instance : Ord (Ident r) := ⟨compareOn Ident.text⟩

instance : Std.TransOrd (Ident r) := inferInstanceAs (Std.TransCmp (compareOn Ident.text))

instance : Std.LawfulEqOrd (Ident r) where
  eq_of_compare h := ext_text (Std.LawfulEqOrd.eq_of_compare (α := String) h)

/-! ## Constants -/

/-- The identifier of this name, if it is a name. -/
def ofText? (text : String) : Option (Ident r) := if h : IsName text then some ⟨text, h⟩ else none

@[simp] theorem ofText?_text (i : Ident r) : ofText? i.text = some i := by
  simp [ofText?, i.isName]

theorem text_of_ofText? {text : String} {i : Ident r} (h : ofText? text = some i) :
    i.text = text := by
  unfold ofText? at h
  split at h <;> simp_all
  rw [← h]

/-- The constant that stands for the identifier in rules. -/
def constant (i : Ident r) : String := String.ofList (r.initials ++ i.text.toList)

@[simp] theorem toList_constant (i : Ident r) :
    i.constant.toList = r.initials ++ i.text.toList := by
  simp [constant]

/-- The identifier that a constant stands for, if it is one of this role. -/
def ofConstant? (constant : String) : Option (Ident r) :=
  if r.initials <+: constant.toList then
    ofText? (String.ofList (constant.toList.drop r.initials.length))
  else none

@[simp] theorem ofConstant?_constant (i : Ident r) : ofConstant? i.constant = some i := by
  simp [ofConstant?]

theorem constant_of_ofConstant? {constant : String} {i : Ident r}
    (h : ofConstant? constant = some i) : i.constant = constant := by
  simp only [ofConstant?] at h
  split at h
  · rename_i hprefix
    obtain ⟨name, hname⟩ := hprefix
    have htext := text_of_ofText? h
    apply String.toList_inj.1
    simp [htext, ← hname]
  · cases h

theorem constant_injective {i j : Ident r} (h : i.constant = j.constant) : i = j := by
  have := congrArg (ofConstant? (r := r)) h
  simpa using this

/-! ## Lane names -/

theorem isName_between (fork : ForkId) (exit : ExitId) :
    IsName (fork.text ++ "_to_" ++ exit.text) := by
  have joiner : ∀ c ∈ "_to_".toList, isNameChar c = true := List.all_eq_true.1 rfl
  refine ⟨by simp, fun c hc ↦ ?_⟩
  simp only [String.toList_append, List.mem_append] at hc
  rcases hc with (hc | hc) | hc
  · exact fork.isName.2 c hc
  · exact joiner c hc
  · exact exit.isName.2 c hc

/-- The lane from a fork to an exit. -/
def between (fork : ForkId) (exit : ExitId) : LaneId :=
  ⟨fork.text ++ "_to_" ++ exit.text, isName_between fork exit⟩

@[simp] theorem text_between (fork : ForkId) (exit : ExitId) :
    (between fork exit).text = fork.text ++ "_to_" ++ exit.text := rfl

end Ident
end RightOfWay
