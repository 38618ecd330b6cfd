/-
# Recording stores

A store that writes every call down before it is carried out.

## Key constructions

* `StoreCall` — a call.
* `Recorded` — a store with its record of calls.
* `Recorded.service` — a store that records.
-/
import Delegation.Service

namespace Delegation

/-- What a store is asked to do. -/
inductive StoreCall
  | grants (type : TargetType) (target : String)
  | add (type : TargetType) (target : String) (grants : List Grant)
  | remove (type : TargetType) (target : String) (grants : List Grant)
deriving DecidableEq

/-- Whether the call can change the store. -/
def StoreCall.isMutation : StoreCall → Bool
  | grants .. => false
  | add .. | remove .. => true

/-- A store with the calls made to it, the oldest first. -/
structure Recorded (σ : Type) where
  store : σ
  calls : List StoreCall

namespace Recorded

variable {σ α : Type}

/-- Writes a call down and carries it out. -/
def record (call : StoreCall) (op : Operation σ α) : Operation (Recorded σ) α := fun r =>
  Operation.onPart store (fun r s => { r with store := s }) op
    { r with calls := r.calls ++ [call] }

/-- A store that records the calls made to it. -/
def service (inner : StoreService σ) : StoreService (Recorded σ) where
  grants target := record (.grants target.type target.name) (inner.grants target)
  addGrants target grants :=
    record (.add target.type target.name grants) (inner.addGrants target grants)
  removeGrants target grants :=
    record (.remove target.type target.name grants) (inner.removeGrants target grants)

end Recorded

end Delegation
