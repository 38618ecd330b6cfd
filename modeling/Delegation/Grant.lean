/-
# Grants

A grant gives one grantee one right.  A modifier turns it into a denial or lets the grantee
pass the right on.  All four parts together identify a grant.

## Key constructions

* `Modifier` — denial, or leave to delegate.
* `Grant` — grantee type, grantee identifier, right and modifier.
* `Grant.text` — the grant on one line, for messages.
* `Grant.hashInput` — what a hasher is fed for a grant.

## Key results

* The instances on `Grant` — grants are linearly ordered by type, identifier, right and modifier.
* `Modifier.ofFlags_flags` — the two flags of a document determine the modifier.
* `Grant.hashInput_injective` — what a hasher is fed tells grants apart.
-/
import Delegation.Grantee

namespace Delegation

open Std

/-- What a grant does instead of plainly giving its right. -/
inductive Modifier
  | deny
  | canDelegate
deriving DecidableEq, Inhabited, Repr

namespace Modifier

/-- Both modifiers, in sorting order. -/
def all : List Modifier := [deny, canDelegate]

/-- The character that marks the modifier in front of a right. -/
def marker : Modifier → Char
  | deny => '-'
  | canDelegate => '+'

/-- The modifier that a character marks. -/
def ofMarker? (c : Char) : Option Modifier := all.find? fun m => m.marker = c

/-- The modifier that the first character of a text marks. -/
def ofText? (text : String) : Option Modifier := text.toList.head?.bind ofMarker?

/-- The marker as a text, which is how stored rows and serial forms spell the modifier. -/
def code (m : Modifier) : String := String.singleton m.marker

/-- The word for the modifier in reports. -/
def label : Modifier → String
  | deny => "DENY"
  | canDelegate => "CAN_DELEGATE"

/-- The modifier for a pair of flags.  Only one can apply, and a denial wins. -/
def ofFlags (denies delegates : Bool) : Option Modifier :=
  if denies then some deny else if delegates then some canDelegate else none

theorem mem_all (m : Modifier) : m ∈ all := by cases m <;> decide

@[simp] theorem ofMarker?_marker (m : Modifier) : ofMarker? m.marker = some m := by
  cases m <;> decide

@[simp] theorem ofText?_code (m : Modifier) : ofText? m.code = some m := by
  cases m <;> decide

/-- Writing a modifier as two flags loses nothing. -/
@[simp] theorem ofFlags_flags (m : Option Modifier) :
    ofFlags (m = some deny) (m = some canDelegate) = m := by
  rcases m with _ | _ | _ <;> decide

/-- The position in `all`. -/
def index : Modifier → Nat := Modifier.ctorIdx

theorem index_injective {m m' : Modifier} (h : m.index = m'.index) : m = m' := by
  cases m <;> cases m' <;> first | rfl | exact absurd h (by decide)

/-- A denial is sorted before leave to delegate. -/
instance : Ord Modifier := ⟨compareOn index⟩

instance : TransOrd Modifier := inferInstanceAs (TransCmp (compareOn index))

instance : LawfulEqOrd Modifier where
  toReflCmp := inferInstance
  eq_of_compare h := index_injective (eq_of_compareOn h)

end Modifier

/-- One right given to one grantee, in the form in which it is stored. -/
@[ext]
structure Grant where
  granteeType : GranteeType
  granteeId : String
  right : String
  modifier : Option Modifier
deriving DecidableEq, Inhabited, Repr

namespace Grant

/-- Whether the grant is a denial. -/
def isDeny (g : Grant) : Bool := g.modifier = some .deny

/-- Whether the grantee may pass the right on. -/
def canDelegate (g : Grant) : Bool := g.modifier = some .canDelegate

/-- The grantee that holds the grant. -/
def granteeKey (g : Grant) : GranteeKey := ⟨g.granteeType, g.granteeId⟩

/-- The modifier in front of the right. -/
def markedRight (g : Grant) : String :=
  (match g.modifier with
    | none => ""
    | some m => m.code) ++ g.right

/-- The grant on one line: identifier, type and marked right. -/
def text (g : Grant) : String := g.granteeId ++ " " ++ g.granteeType.code ++ " " ++ g.markedRight

/-- Grants are compared by type, identifier, right and modifier, in this order; a grant without
modifier comes first. -/
def order : Grant → Grant → Ordering :=
  compareLex (compareOn granteeType)
    (compareLex (compareOn granteeId) (compareLex (compareOn right) (compareOn modifier)))

instance : Ord Grant := ⟨order⟩

instance : TransOrd Grant := inferInstanceAs (TransCmp (compareLex (compareOn granteeType)
  (compareLex (compareOn granteeId) (compareLex (compareOn right) (compareOn modifier)))))

instance : LawfulEqOrd Grant where
  toReflCmp := inferInstance
  eq_of_compare {a b} h := by
    obtain ⟨ht, h⟩ := compareLex_eq_eq.mp h
    obtain ⟨hi, h⟩ := compareLex_eq_eq.mp h
    obtain ⟨hr, hm⟩ := compareLex_eq_eq.mp h
    exact Grant.ext (eq_of_compareOn ht) (eq_of_compareOn hi) (eq_of_compareOn hr)
      (eq_of_compareOn hm)

end Grant

/-! ## Hashing -/

/-- One thing that a hasher is fed: the number of an alternative, or a text. -/
inductive HashItem
  | alternative (index : Nat)
  | text (s : String)
deriving DecidableEq, Hashable, Repr

/-- A modifier is fed as the number that says whether there is one, and then as its own. -/
def Modifier.hashInput : Option Modifier → List HashItem
  | none => [.alternative 0]
  | some m => [.alternative 1, .alternative m.index]

/-- The first number tells a modifier from none, and the second one which modifier it is. -/
theorem Modifier.hashInput_injective {m m' : Option Modifier} (h : hashInput m = hashInput m') :
    m = m' := by
  rcases m with _ | _ | _ <;> rcases m' with _ | _ | _ <;> first | rfl | exact absurd h (by decide)

namespace Grant

/-- A grant is fed to a hasher part by part, in the order in which grants are compared. -/
def hashInput (g : Grant) : List HashItem :=
  .alternative g.granteeType.index :: .text g.granteeId :: .text g.right ::
    Modifier.hashInput g.modifier

/-- Grants for which a hasher is fed the same are equal. -/
theorem hashInput_injective {a b : Grant} (h : a.hashInput = b.hashInput) : a = b := by
  obtain ⟨htype, h⟩ := List.cons.inj h
  obtain ⟨hid, h⟩ := List.cons.inj h
  obtain ⟨hright, hmodifier⟩ := List.cons.inj h
  exact Grant.ext (GranteeType.index_injective (HashItem.alternative.inj htype))
    (HashItem.text.inj hid) (HashItem.text.inj hright) (Modifier.hashInput_injective hmodifier)

end Grant

end Delegation
