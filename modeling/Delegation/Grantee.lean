/-
# Grantee types and addressing

A right is granted to a grantee: an account, a group, a domain, every authenticated user or
everyone.  Targets and grantees are addressed by identifier or by name.

## Key constructions

* `GranteeType` — the five types, in the order in which entries of a list are sorted.
* `Addressing` — by identifier or by name.
* `GranteeKey` — the type of a grantee with its identifier.
* `UnknownCode` — a code that spells no type, or no way of addressing.

## Key results

* `GranteeType.ofCode?_code` — the codes identify the types.
-/
import Delegation.Target

namespace Delegation

open Std

/-- Who a right is granted to. -/
inductive GranteeType
  | user
  | group
  | domain
  | authenticated
  | everyone
deriving DecidableEq, Inhabited, Repr

namespace GranteeType

/-- Every type, in sorting order. -/
def all : List GranteeType := [user, group, domain, authenticated, everyone]

/-- The code that spells the type. -/
def code : GranteeType → String
  | user => "usr"
  | group => "grp"
  | domain => "dom"
  | authenticated => "all"
  | everyone => "pub"

/-- The type that a code spells. -/
def ofCode? (code : String) : Option GranteeType := all.find? fun t => t.code = code

/-- The position in `all`. -/
def index : GranteeType → Nat := GranteeType.ctorIdx

theorem mem_all (t : GranteeType) : t ∈ all := by cases t <;> decide

@[simp] theorem ofCode?_code (t : GranteeType) : ofCode? t.code = some t := by
  cases t <;> decide

theorem ofCode?_eq_some_iff {code : String} {t : GranteeType} :
    ofCode? code = some t ↔ t.code = code := by
  constructor
  · intro h
    simpa using List.find?_some h
  · rintro rfl
    exact ofCode?_code t

theorem index_injective {t t' : GranteeType} (h : t.index = t'.index) : t = t' := by
  cases t <;> cases t' <;> first | rfl | exact absurd h (by decide)

/-- Types are ordered as `all` lists them. -/
instance : Ord GranteeType := ⟨compareOn index⟩

instance : TransOrd GranteeType := inferInstanceAs (TransCmp (compareOn index))

instance : LawfulEqOrd GranteeType where
  toReflCmp := inferInstance
  eq_of_compare h := index_injective (eq_of_compareOn h)

end GranteeType

/-- A grantee as the directory files it: its type and its identifier. -/
structure GranteeKey where
  type : GranteeType
  id : String
deriving DecidableEq, Inhabited, Repr

namespace GranteeKey

/-- Grantee keys are ordered by type and then by identifier. -/
instance : Ord GranteeKey := ⟨compareLex (compareOn type) (compareOn id)⟩

instance : TransOrd GranteeKey :=
  inferInstanceAs (TransCmp (compareLex (compareOn type) (compareOn id)))

instance : LawfulEqOrd GranteeKey where
  toReflCmp := inferInstance
  eq_of_compare {a b} h := by
    obtain ⟨ht, hi⟩ := compareLex_eq_eq.mp h
    cases a; cases b
    simp only [mk.injEq]
    exact ⟨eq_of_compareOn ht,
      eq_of_compareOn hi⟩

end GranteeKey

/-! ## Addressing -/

/-- How a key addresses an entry. -/
inductive Addressing
  | byId
  | byName
deriving DecidableEq, Inhabited, Repr

namespace Addressing

/-- Both ways of addressing. -/
def all : List Addressing := [byId, byName]

/-- The code that spells the way of addressing. -/
def code : Addressing → String
  | byId => "id"
  | byName => "name"

/-- The way of addressing that a code spells. -/
def ofCode? (code : String) : Option Addressing := all.find? fun a => a.code = code

theorem mem_all (a : Addressing) : a ∈ all := by cases a <;> decide

@[simp] theorem ofCode?_code (a : Addressing) : ofCode? a.code = some a := by
  cases a <;> decide

end Addressing

/-! ## Unknown codes -/

/-- A text that spells none of the codes expected of it. -/
inductive UnknownCode
  | targetType (code : String)
  | granteeType (code : String)
  | addressing (code : String)
deriving DecidableEq, Repr

/-- The text that reports an unknown code. -/
def UnknownCode.message : UnknownCode → String
  | targetType code => "unknown target type: " ++ code
  | granteeType code => "unknown grantee type: " ++ code
  | addressing code => "unknown addressing mode: " ++ code

/-- Reads a target type from its code. -/
def TargetType.parse (code : String) : Except UnknownCode TargetType :=
  match ofCode? code with
  | some t => .ok t
  | none => .error (.targetType code)

/-- Reads a grantee type from its code. -/
def GranteeType.parse (code : String) : Except UnknownCode GranteeType :=
  match ofCode? code with
  | some t => .ok t
  | none => .error (.granteeType code)

/-- Reads a way of addressing from its code. -/
def Addressing.parse (code : String) : Except UnknownCode Addressing :=
  match ofCode? code with
  | some a => .ok a
  | none => .error (.addressing code)

end Delegation
