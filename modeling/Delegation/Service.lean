/-
# Services

The engine looks entries up in a directory and rights in a catalog, asks an evaluator whether
rights are held, and keeps grants in a store.  A service is a record of operations on a state of
its own, so an operation of one service cannot touch the state of another.

## Key constructions

* `Operation` — an operation on a state that may fail; the state outlives a failure.
* `DirectoryService`, `CatalogService`, `EvaluatorService`, `StoreService` — the four services.
* `Collaborators` — one of each.
-/
import Delegation.Aggregation.Report
import Delegation.Service.Entry
import Delegation.Service.Error

namespace Delegation

/-- An operation on a state of type `σ`.  A failure keeps the state reached before it. -/
abbrev Operation (σ α : Type) : Type := ExceptT ServiceError (StateM σ) α

namespace Operation

variable {σ τ α : Type}

/-- An operation that only looks at the state. -/
def ask (answer : σ → Except ServiceError α) : Operation σ α := fun s => (answer s, s)

/-- An operation that changes the state and does not fail. -/
def change (step : σ → α × σ) : Operation σ α := fun s =>
  let (a, s) := step s
  (.ok a, s)

/-- An operation on a part of a state. -/
def onPart (part : σ → τ) (replace : σ → τ → σ) (op : Operation τ α) : Operation σ α := fun s =>
  let (result, t) := op (part s)
  (result, replace s t)

end Operation

/-- How to find an entry: by identifier or by name. -/
structure Locator where
  mode : Addressing
  key : String
deriving DecidableEq

/-- Looks entries up. -/
structure DirectoryService (σ : Type) where
  lookupTarget : TargetType → Locator → Operation σ TargetEntry
  lookupGrantee : GranteeType → Locator → Operation σ GranteeEntry
  /-- A stand-in for an entry that does not exist yet, in a domain and a class of service. -/
  pseudoTarget : TargetType → (domain classOfService : Option Locator) → Operation σ TargetEntry

/-- Holds the definitions of rights. -/
structure CatalogService (σ : Type) where
  right : String → Operation σ Right
  allRights : Operation σ (Keyed Right.name)

/-- Decides which rights are held. -/
structure EvaluatorService (σ : Type) where
  /-- Whether the evaluator can tell who may pass rights on. -/
  supportsDelegation : Bool
  /-- Whether an actor may exercise a right on a target, or pass it on with `forGrant`. -/
  canPerform : (actor : GranteeEntry) → TargetEntry → Right → (forGrant : Bool) →
    Option AttrValues → Operation σ Decision
  /-- The rights of a grantee on a target. -/
  effectiveRights : GranteeEntry → TargetEntry → (expandSet expandGet : Bool) →
    Operation σ (List SnapshotStep)
  /-- The rights of a grantee on all targets. -/
  allEffectiveRights : GranteeEntry → (expandSet expandGet : Bool) →
    Operation σ (List (TargetType × Contribution))
  /-- Fails if an actor holds a right only in part, so that it would pass on more than it has. -/
  checkPartiallyDenied : (actor : GranteeEntry) → TargetEntry → Right → Operation σ Unit

/-- Keeps the grants on targets. -/
structure StoreService (σ : Type) where
  grants : TargetEntry → Operation σ (List Grant)
  /-- Adds grants.  Grants that are there already stay as they are. -/
  addGrants : TargetEntry → List Grant → Operation σ Unit
  /-- Removes grants, and returns those that were there. -/
  removeGrants : TargetEntry → List Grant → Operation σ (List Grant)

/-- The services that an engine works with. -/
structure Collaborators (D C E S : Type) where
  directory : DirectoryService D
  catalog : CatalogService C
  evaluator : EvaluatorService E
  store : StoreService S

end Delegation
