/-
# The table of grants

Grants kept as rows of text, as a database keeps them.  Rows may come from elsewhere, so they
are checked when they are read.

## Key constructions

* `GrantRow` — a row, with a column for each part of a grant and its target.
* `GrantTable` — the rows, without repetition, in the order of their texts.
* `GrantRow.toGrant` — reads a row.
* `GrantTable.service` — the table as a store.
-/
import Delegation.Service

namespace Delegation

open Std

/-- A row of the table. -/
structure GrantRow where
  targetType : String
  targetKey : String
  granteeType : String
  granteeId : String
  right : String
  modifier : String
deriving DecidableEq

namespace GrantRow

/-- Rows are compared column by column. -/
def order : GrantRow → GrantRow → Ordering :=
  compareLex (compareOn targetType) <| compareLex (compareOn targetKey) <|
    compareLex (compareOn granteeType) <| compareLex (compareOn granteeId) <|
      compareLex (compareOn right) (compareOn modifier)

instance : Ord GrantRow := ⟨order⟩

instance : TransOrd GrantRow := inferInstanceAs (TransCmp (
  compareLex (compareOn targetType) <| compareLex (compareOn targetKey) <|
    compareLex (compareOn granteeType) <| compareLex (compareOn granteeId) <|
      compareLex (compareOn right) (compareOn modifier)))

instance : LawfulEqOrd GrantRow where
  toReflCmp := inferInstance
  eq_of_compare {a b} h := by
    obtain ⟨h₁, h⟩ := compareLex_eq_eq.mp h
    obtain ⟨h₂, h⟩ := compareLex_eq_eq.mp h
    obtain ⟨h₃, h⟩ := compareLex_eq_eq.mp h
    obtain ⟨h₄, h⟩ := compareLex_eq_eq.mp h
    obtain ⟨h₅, h₆⟩ := compareLex_eq_eq.mp h
    cases a; cases b
    simp only [mk.injEq]
    exact ⟨eq_of_compareOn h₁,
      eq_of_compareOn h₂,
      eq_of_compareOn h₃,
      eq_of_compareOn h₄,
      eq_of_compareOn h₅,
      eq_of_compareOn h₆⟩

/-- The row of a grant on a target. -/
def ofGrant (target : TargetKey) (g : Grant) : GrantRow :=
  ⟨target.type.code, target.key, g.granteeType.code, g.granteeId, g.right,
    (g.modifier.map Modifier.code).getD ""⟩

/-- Whether the row belongs to a target. -/
def isOn (r : GrantRow) (target : TargetKey) : Bool :=
  r.targetType = target.type.code ∧ r.targetKey = target.key

/-- Reads a modifier column.  Only its first character counts. -/
def readModifier (column : String) : Except ServiceError (Option Modifier) :=
  match column.toList with
  | [] => .ok none
  | c :: _ =>
    match Modifier.ofMarker? c with
    | some m => .ok (some m)
    | none => .error (.invalidData ("unknown right modifier: " ++ column))

/-- Reads the type of a grantee. -/
def readGranteeType (column : String) : Except ServiceError GranteeType :=
  match GranteeType.parse column with
  | .ok type => .ok type
  | .error e => .error (.invalidData e.message)

/-- The grant that a row holds. -/
def toGrant (r : GrantRow) : Except ServiceError Grant := do
  let granteeType ← readGranteeType r.granteeType
  let modifier ← readModifier r.modifier
  return ⟨granteeType, r.granteeId, r.right, modifier⟩

end GrantRow

/-- The rows of the table. -/
abbrev GrantTable : Type := Keyed (id : GrantRow → GrantRow)

namespace GrantTable

/-- The grants on a target, in the order of their rows. -/
def on (t : GrantTable) (target : TargetKey) : Except ServiceError (List Grant) :=
  (t.toList.filter fun r => r.isOn target).mapM GrantRow.toGrant

/-- Adds the rows of grants on a target. -/
def add (t : GrantTable) (target : TargetKey) (grants : List Grant) : GrantTable :=
  grants.foldl (fun t g => t.insert (.ofGrant target g)) t

/-- Removes the rows of grants one after the other, and returns the grants whose rows were
there. -/
def remove (t : GrantTable) (target : TargetKey) : List Grant → List Grant × GrantTable
  | [] => ([], t)
  | g :: gs =>
    if t.contains (.ofGrant target g) then
      let (removed, t) := remove (t.erase (.ofGrant target g)) target gs
      (g :: removed, t)
    else remove t target gs

/-- The table as a store. -/
def service : StoreService GrantTable where
  grants target := .ask fun t => on t target.key
  addGrants target grants := .change fun t => ((), add t target.key grants)
  removeGrants target grants := .change fun t => remove t target.key grants

end GrantTable

end Delegation
