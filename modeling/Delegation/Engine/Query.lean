/-
# Queries

What rights exist, which of them a grantee has, and which grants are on a target.

## Key constructions

* `Engine.right`, `Engine.allRights` — the rights of the catalog.
* `Engine.effectiveRights`, `Engine.creationRights`, `Engine.allEffectiveRights` — the rights of
  a grantee.
* `Engine.checkRight` — whether an account may exercise a right.
* `Engine.noteAfter` — what a check tells its caller about the grant that decided it.
* `Engine.grants` — the grants on a target under display names.
-/
import Delegation.Acl
import Delegation.Engine.Basic

namespace Delegation.Engine

variable {D C E S : Type} (engine : Engine D C E S)

/-! ## Rights -/

/-- The right with a name. -/
def right (name : String) : Request D C E S Right := .catalog (engine.catalog.right name)

/-- The admin rights in the order of their names, on one target type or on all. -/
def allRights (type : Option TargetType) : Request D C E S (List Right) := do
  let rights ← .catalog engine.catalog.allRights
  return rights.toList.filter fun r => !r.isUserRight && type.all r.grantableOn

/-! ## Rights of a grantee -/

/-- Finds a target. -/
def lookupTarget (target : TargetAddress) : Request D C E S TargetEntry :=
  .directory (engine.directory.lookupTarget target.type target.locator)

/-- Finds a grantee. -/
def lookupGrantee (grantee : GranteeAddress) : Request D C E S GranteeEntry :=
  .directory (engine.directory.lookupGrantee grantee.type grantee.locator)

/-- Finds an account. -/
def lookupAccount (account : Locator) : Request D C E S GranteeEntry := do
  let entry ← engine.lookupGrantee ⟨.user, account⟩
  if entry.type = .user then return entry else throw (.invalid (.notAnAccount account.key))

/-- The rights of a grantee on a target. -/
def evaluate (target : TargetEntry) (grantee : GranteeEntry) (expandSet expandGet : Bool) :
    Request D C E S Snapshot := do
  let steps ← .evaluator (engine.evaluator.effectiveRights grantee target expandSet expandGet)
  return (Snapshot.start target.type target.id target.name grantee.id grantee.name).build steps

/-- The rights of an account on a target. -/
def effectiveRights (target : TargetAddress) (account : Locator) (expandSet expandGet : Bool) :
    Request D C E S Snapshot := do
  let target ← engine.lookupTarget target
  let account ← engine.lookupAccount account
  engine.evaluate target account expandSet expandGet

/-- The rights of an account on an entry that it might create.  Attributes are spelled out. -/
def creationRights (type : TargetType) (domain classOfService : Option Locator)
    (account : Locator) : Request D C E S Snapshot := do
  let target ← .directory (engine.directory.pseudoTarget type domain classOfService)
  let account ← engine.lookupAccount account
  engine.evaluate target account true true

/-- Adds contributions to a report one after the other.  Their events are noted even if a later
one fails. -/
def collect : RightsReport → List (TargetType × Contribution) → Request D C E S RightsReport
  | report, [] => return report
  | report, (type, c) :: rest => do
    Request.note (report.events type c)
    match report.add type c with
    | .ok report => collect report rest
    | .error e => throw (.ofService (.backend e.message))

/-- The rights of a grantee on all targets. -/
def allEffectiveRights (grantee : GranteeAddress) (expandSet expandGet : Bool) :
    Request D C E S RightsReport := do
  let entry ← engine.lookupGrantee grantee
  let contributions ←
    .evaluator (engine.evaluator.allEffectiveRights entry expandSet expandGet)
  collect (.start grantee.type.code entry.id entry.name) contributions

/-- Whether an account may exercise a right on a target.  Values for attributes may come with a
right to write attributes only. -/
def checkRight (target : TargetAddress) (account : Locator) (right : String)
    (attrs : Option AttrValues) : Request D C E S Decision := do
  let target ← engine.lookupTarget target
  let account ← engine.lookupAccount account
  let right ← engine.right right
  if attrs.any (!·.isEmpty) && !right.isSetAttrs then
    throw (.invalid (.attrsNotAllowed right.name))
  let decision ← .evaluator (engine.evaluator.canPerform account target right false attrs)
  if !decision.allowed then
    Request.note [.checkDenied account.name target.name right.name]
  return decision

/-- What a caller has noted about the deciding grant after a check: the grant that the decision
names, or else what was noted before. -/
def noteAfter (before : DecidingGrant) : Except RequestError Decision → DecidingGrant
  | .ok decision => decision.via.getD before
  | .error _ => before

/-! ## Grants -/

/-- Looks up the names of grantees, each grantee that was found only once.  Grantees that are
gone have no name. -/
def resolveNames : List Grant → List (GranteeKey × String) →
    Request D C E S (List (GranteeKey × String))
  | [], names => return names
  | g :: gs, names => do
    if (names.lookup g.granteeKey).isSome then resolveNames gs names
    else
      match ← .tryDirectory (engine.directory.lookupGrantee g.granteeType ⟨.byId, g.granteeId⟩) with
      | .ok entry => resolveNames gs ((g.granteeKey, entry.name) :: names)
      | .error (.notFound _ _) => resolveNames gs names
      | .error e => throw (.ofService e)

/-- The grants on a target.  Grantees without a name are shown by their identifiers. -/
def grants (target : TargetAddress) : Request D C E S Acl := do
  let target ← engine.lookupTarget target
  let grants ← .store (engine.store.grants target)
  let names ← if engine.config.resolveGranteeNames then engine.resolveNames grants [] else pure []
  return .ofGrants (fun g => (names.lookup g.granteeKey).getD g.granteeId) grants

end Delegation.Engine
