/-
# Planned breakdowns

Services that can be told to fail.  A planned breakdown lets some calls of a method through, and
then the method fails for good.

## Key constructions

* `ServiceMethod` — the methods of the four services.
* `Breakdown`, `BreakdownPlan` — which methods will fail, when and how.
* `Guarded` — a service with a plan.
* `Guarded.directory`, `Guarded.catalog`, `Guarded.evaluator`, `Guarded.store` — the guarded
  services.
-/
import Delegation.Service

namespace Delegation

/-- The methods of the services. -/
inductive ServiceMethod
  | lookupTarget
  | lookupGrantee
  | pseudoTarget
  | right
  | allRights
  | canPerform
  | effectiveRights
  | allEffectiveRights
  | checkPartiallyDenied
  | grants
  | addGrants
  | removeGrants
deriving DecidableEq, Repr

/-- A method that will fail. -/
structure Breakdown where
  method : ServiceMethod
  error : ServiceError
  /-- How many calls still get through. -/
  after : Nat

/-- The breakdowns to come, at most one for each method. -/
abbrev BreakdownPlan : Type := List Breakdown

namespace BreakdownPlan

/-- Plans a breakdown in the place of one of the same method. -/
def add (plan : BreakdownPlan) (b : Breakdown) : BreakdownPlan :=
  b :: plan.filter fun b' => b'.method ≠ b.method

/-- Counts a call of a method, and tells whether it fails. -/
def call (method : ServiceMethod) : BreakdownPlan → Option ServiceError × BreakdownPlan
  | [] => (none, [])
  | b :: plan =>
    if b.method = method then
      match b.after with
      | 0 => (some b.error, b :: plan)
      | n + 1 => (none, { b with after := n } :: plan)
    else
      let (error, plan) := call method plan
      (error, b :: plan)

end BreakdownPlan

/-! ## Guarded services -/

/-- The state of a service with the breakdowns planned for it. -/
structure Guarded (σ : Type) where
  inner : σ
  plan : BreakdownPlan

namespace Guarded

variable {σ α : Type}

/-- A state without planned breakdowns. -/
def safe (inner : σ) : Guarded σ := ⟨inner, []⟩

/-- Plans a breakdown. -/
def planFor (g : Guarded σ) (b : Breakdown) : Guarded σ := { g with plan := g.plan.add b }

/-- Forgets all planned breakdowns. -/
def clear (g : Guarded σ) : Guarded σ := { g with plan := [] }

/-- Runs an operation unless its method breaks down. -/
def guard (method : ServiceMethod) (op : Operation σ α) : Operation (Guarded σ) α := fun g =>
  match g.plan.call method with
  | (some error, plan) => (.error error, { g with plan := plan })
  | (none, plan) =>
    Operation.onPart inner (fun g s => { g with inner := s }) op { g with plan := plan }

/-- A directory with planned breakdowns. -/
def directory (d : DirectoryService σ) : DirectoryService (Guarded σ) where
  lookupTarget type loc := guard .lookupTarget (d.lookupTarget type loc)
  lookupGrantee type loc := guard .lookupGrantee (d.lookupGrantee type loc)
  pseudoTarget type domain classOfService :=
    guard .pseudoTarget (d.pseudoTarget type domain classOfService)

/-- A catalog with planned breakdowns. -/
def catalog (c : CatalogService σ) : CatalogService (Guarded σ) where
  right name := guard .right (c.right name)
  allRights := guard .allRights c.allRights

/-- An evaluator with planned breakdowns. -/
def evaluator (e : EvaluatorService σ) : EvaluatorService (Guarded σ) where
  supportsDelegation := e.supportsDelegation
  canPerform actor target right forGrant attrs :=
    guard .canPerform (e.canPerform actor target right forGrant attrs)
  effectiveRights grantee target expandSet expandGet :=
    guard .effectiveRights (e.effectiveRights grantee target expandSet expandGet)
  allEffectiveRights grantee expandSet expandGet :=
    guard .allEffectiveRights (e.allEffectiveRights grantee expandSet expandGet)
  checkPartiallyDenied actor target right :=
    guard .checkPartiallyDenied (e.checkPartiallyDenied actor target right)

/-- A store with planned breakdowns. -/
def store (s : StoreService σ) : StoreService (Guarded σ) where
  grants target := guard .grants (s.grants target)
  addGrants target grants := guard .addGrants (s.addGrants target grants)
  removeGrants target grants := guard .removeGrants (s.removeGrants target grants)

end Guarded

end Delegation
