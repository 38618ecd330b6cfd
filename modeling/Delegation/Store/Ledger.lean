/-
# The grant ledger

Grants kept as a set of pairs of a target and a grant.

## Key constructions

* `StoredGrant` — a grant with the target on which it was made.
* `Ledger` — the set of stored grants.
* `Ledger.on` — the grants on a target, in the order of grants.
* `Ledger.service` — the ledger as a store.
-/
import Delegation.Service

namespace Delegation

open Std

/-- A grant and the target on which it was made. -/
structure StoredGrant where
  target : TargetKey
  grant : Grant
deriving DecidableEq

namespace StoredGrant

/-- Stored grants are ordered by target and then by grant. -/
instance : Ord StoredGrant := ⟨compareLex (compareOn target) (compareOn grant)⟩

instance : TransOrd StoredGrant :=
  inferInstanceAs (TransCmp (compareLex (compareOn target) (compareOn grant)))

instance : LawfulEqOrd StoredGrant where
  toReflCmp := inferInstance
  eq_of_compare {a b} h := by
    obtain ⟨ht, hg⟩ := compareLex_eq_eq.mp h
    cases a; cases b
    simp only [mk.injEq]
    exact ⟨eq_of_compareOn ht,
      eq_of_compareOn hg⟩

end StoredGrant

/-- The grants on all targets. -/
abbrev Ledger : Type := Keyed (id : StoredGrant → StoredGrant)

namespace Ledger

/-- The grants on a target, in order. -/
def on (l : Ledger) (target : TargetKey) : List Grant :=
  (l.toList.filter fun s => s.target = target).map StoredGrant.grant

/-- Adds grants to a target. -/
def add (l : Ledger) (target : TargetKey) (grants : List Grant) : Ledger :=
  grants.foldl (fun l g => l.insert ⟨target, g⟩) l

/-- Removes grants from a target one after the other, and returns those that were there. -/
def remove (l : Ledger) (target : TargetKey) : List Grant → List Grant × Ledger
  | [] => ([], l)
  | g :: gs =>
    if l.contains ⟨target, g⟩ then
      let (removed, l) := remove (l.erase ⟨target, g⟩) target gs
      (g :: removed, l)
    else remove l target gs

/-- The ledger as a store. -/
def service : StoreService Ledger where
  grants target := .ask fun l => .ok (on l target.key)
  addGrants target grants := .change fun l => ((), add l target.key grants)
  removeGrants target grants := .change fun l => remove l target.key grants

end Ledger

end Delegation
