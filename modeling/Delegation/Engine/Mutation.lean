/-
# Granting and revoking

Every check comes before the one call to the store.  An actor can only hand out or take away
rights that it holds itself with leave to delegate; without an actor the request is trusted.

## Key constructions

* `Mutation` — granting or revoking.
* `Engine.verify` — the checks before a change.
* `Engine.grant`, `Engine.revoke` — the changes.
-/
import Delegation.Engine.Eligibility
import Delegation.Engine.Query

namespace Delegation

/-- The two ways to change the grants on a target. -/
inductive Mutation
  | grant
  | revoke
deriving DecidableEq

/-- The denial of a change. -/
def Mutation.denial : Mutation → String → Denial
  | grant, right => .grant right
  | revoke, right => .revoke right

namespace Engine

variable {D C E S : Type} (engine : Engine D C E S)

/-- Whether an admin right may be granted or revoked at all.  A grantee may have lost its standing
since a grant was made, so revoking does not look at the grantee. -/
def checkEligibility (target : TargetEntry) (grantee : Option GranteeEntry) (right : Right) :
    Mutation → Except InvalidRequest Unit
  | .grant => do
    if right.isUserRight then return ()
    match grantee with
    | some g => right.checkGrantee g
    | none => pure ()
    right.checkTarget target.type
  | .revoke => if right.isUserRight then return () else right.checkTarget target.type

/-- Whether an actor may pass a right on. -/
def checkDelegation (actor : GranteeEntry) (target : TargetEntry) (right : Right)
    (mutation : Mutation) : Request D C E S Unit := do
  let decision ← .evaluator (engine.evaluator.canPerform actor target right true none)
  if !decision.allowed then
    Request.note [.delegationDenied actor.name right.name]
    throw (.denied (mutation.denial right.name))
  .evaluator (engine.evaluator.checkPartiallyDenied actor target right)

/-- The checks before a change.  There is no grantee when the grant of a grantee that is gone is
revoked; anybody may clean up such a grant. -/
def verify (actor : Option GranteeEntry) (target : TargetEntry) (grantee : Option GranteeEntry)
    (right : Right) (mutation : Mutation) : Request D C E S Unit := do
  Request.check (checkEligibility target grantee right mutation)
  match actor, grantee with
  | some actor, some _ => engine.checkDelegation actor target right mutation
  | _, _ => return ()

/-- Grants a right. -/
def grant (actor : Option GranteeEntry) (target : TargetAddress) (grantee : GranteeAddress)
    (right : String) (modifier : Option Modifier) : Request D C E S Unit := do
  let target ← engine.lookupTarget target
  let entry ← engine.lookupGrantee grantee
  let right ← engine.right right
  engine.verify actor target (some entry) right .grant
  let grant : Grant := ⟨grantee.type, entry.id, right.name, modifier⟩
  .store (engine.store.addGrants target [grant])
  Request.note [.granted target.type target.name grant]

/-- Finds the grantee whose grant is to be revoked.  A grantee that is gone can be addressed by
its identifier if the configuration allows it. -/
def lookupRevoked (grantee : GranteeAddress) : Request D C E S (Option GranteeEntry × String) := do
  match ← .tryDirectory (engine.directory.lookupGrantee grantee.type grantee.locator) with
  | .ok entry => return (some entry, entry.id)
  | .error (.notFound kind key) =>
    if kind.isMissingGrantee && engine.config.orphanRevoke then
      Request.note [.granteeMissing key kind.label]
      match grantee.locator.mode with
      | .byId => return (none, grantee.locator.key)
      | .byName => throw (.invalid (.granteeNameUnresolvable key))
    else throw (.notFound kind key)
  | .error e => throw (.ofService e)

/-- Revokes a right and returns the grants that were removed. -/
def revoke (actor : Option GranteeEntry) (target : TargetAddress) (grantee : GranteeAddress)
    (right : String) (modifier : Option Modifier) : Request D C E S (List Grant) := do
  let target ← engine.lookupTarget target
  let (entry, granteeId) ← engine.lookupRevoked grantee
  let right ← engine.right right
  engine.verify actor target entry right .revoke
  let grant : Grant := ⟨grantee.type, granteeId, right.name, modifier⟩
  let removed ← .store (engine.store.removeGrants target [grant])
  if removed.isEmpty then throw (.noSuchGrant grant)
  Request.note [.revoked target.type target.name grant]
  return removed

end Engine

end Delegation
