/-
# Rehearsals

A rehearsal is an engine over a directory, a catalog and a scripted evaluator in memory, and over a
store that records its calls.  Between requests its entries, rights, answers and planned
breakdowns can be changed.

## Key constructions

* `Rehearsal` — an engine with the states of its collaborators.
* `Rehearsal.start` — the initial state.
* `Rehearsal.perform` — answers a request.
* `Rehearsal.describe` — describes a right by its document.
* `Rehearsal.check` — checks a right for a caller that keeps a note of the deciding grant.
* `Rehearsal.mutate` — carries out a change of grants and reports what it leaves behind.
-/
import Delegation.Codec.Json.Form
import Delegation.Document.Definition
import Delegation.Engine.Mutation
import Delegation.Rehearsal.Alias
import Delegation.Rehearsal.Breakdown
import Delegation.Rehearsal.Sample
import Delegation.Script
import Delegation.Store.Recorder

namespace Delegation

/-- The state of the directory of a rehearsal. -/
abbrev RehearsedDirectory : Type := Guarded (Aliased Directory)

/-- The states of the collaborators of a rehearsal. -/
abbrev RehearsedWorld (S : Type) : Type :=
  World RehearsedDirectory (Guarded Catalog) (Guarded Script) (Recorded (Guarded S))

/-- A request in a rehearsal. -/
abbrev RehearsedRequest (S α : Type) : Type :=
  Request RehearsedDirectory (Guarded Catalog) (Guarded Script) (Recorded (Guarded S)) α

/-- An engine with the states of its collaborators. -/
structure Rehearsal (S : Type) where
  engine : Engine RehearsedDirectory (Guarded Catalog) (Guarded Script) (Recorded (Guarded S))
  world : RehearsedWorld S

namespace Rehearsal

variable {S α : Type}

/-! ## Starting -/

/-- The collaborators of a rehearsal over a store. -/
def collaborators (store : StoreService S) (supportsDelegation : Bool) :
    Collaborators RehearsedDirectory (Guarded Catalog) (Guarded Script) (Recorded (Guarded S)) where
  directory := Guarded.directory (Aliased.service Directory.service)
  catalog := Guarded.catalog Catalog.service
  evaluator := Guarded.evaluator (Script.service supportsDelegation)
  store := Recorded.service (Guarded.store store)

/-- A rehearsal with the given entries, rights and store. -/
def start (store : StoreService S) (initial : S) (directory : Directory) (catalog : Catalog)
    (supportsDelegation : Bool) (config : Config) : Except RequestError (Rehearsal S) := do
  let engine ← Engine.create (collaborators store supportsDelegation) config
  return ⟨engine,
    { directory := .safe ⟨directory, []⟩
      catalog := .safe catalog
      evaluator := .safe .empty
      store := ⟨.safe initial, []⟩
      log := [] }⟩

/-! ## Changing the collaborators -/

/-- The entries of the directory. -/
def directory (r : Rehearsal S) : Directory := r.world.directory.inner.inner

/-- Changes the entries of the directory. -/
def changeDirectory (r : Rehearsal S) (f : Directory → Directory) : Rehearsal S :=
  { r with world.directory.inner.inner := f r.directory }

/-- Makes a key an alias. -/
def addAlias (r : Rehearsal S) (key : String) : Rehearsal S :=
  { r with world.directory.inner.aliases := key :: r.world.directory.inner.aliases }

/-- Adds a right to the catalog. -/
def addRight (r : Rehearsal S) (right : Right) : Rehearsal S :=
  { r with world.catalog.inner := r.world.catalog.inner.insert right }

/-- Changes the script of the evaluator. -/
def changeScript (r : Rehearsal S) (f : Script → Script) : Rehearsal S :=
  { r with world.evaluator.inner := f r.world.evaluator.inner }

/-- What the store holds. -/
def stored (r : Rehearsal S) : S := r.world.store.store.inner

/-- Changes what the store holds. -/
def changeStored (r : Rehearsal S) (s : S) : Rehearsal S :=
  { r with world.store.store.inner := s }

/-- Configures the engine anew. -/
def configure (r : Rehearsal S) (config : Config) : Rehearsal S :=
  { r with engine.config := config }

/-- Adds a delegated admin, both as a grantee and as an account of the sample's domain. -/
def addDelegatedAdmin (r : Rehearsal S) (id name : String) : GranteeEntry × Rehearsal S :=
  let entry : GranteeEntry := ⟨.user, id, name, .delegated⟩
  (entry, r.changeDirectory fun d =>
    (d.addGrantee entry).addTarget (Sample.member .account id name))

/-- Plans a breakdown of the service that has the method. -/
def planBreakdown (r : Rehearsal S) (b : Breakdown) : Rehearsal S :=
  match b.method with
  | .lookupTarget | .lookupGrantee | .pseudoTarget =>
    { r with world.directory := r.world.directory.planFor b }
  | .right | .allRights => { r with world.catalog := r.world.catalog.planFor b }
  | .canPerform | .effectiveRights | .allEffectiveRights | .checkPartiallyDenied =>
    { r with world.evaluator := r.world.evaluator.planFor b }
  | .grants | .addGrants | .removeGrants =>
    { r with world.store.store := r.world.store.store.planFor b }

/-- Forgets all planned breakdowns. -/
def clearBreakdowns (r : Rehearsal S) : Rehearsal S :=
  { r with
    world.directory := r.world.directory.clear
    world.catalog := r.world.catalog.clear
    world.evaluator := r.world.evaluator.clear
    world.store.store := r.world.store.store.clear }

/-! ## Observing -/

/-- The calls of the store so far. -/
def storeCalls (r : Rehearsal S) : List StoreCall := r.world.store.calls

/-- Forgets the calls of the store. -/
def clearStoreCalls (r : Rehearsal S) : Rehearsal S := { r with world.store.calls := [] }

/-- How often the evaluator was asked for a decision. -/
def decisionCount (r : Rehearsal S) : Nat := r.world.evaluator.inner.decisionCount

/-- The events so far, and the rehearsal with an empty log. -/
def takeLog (r : Rehearsal S) : List Event × Rehearsal S :=
  (r.world.log, { r with world.log := [] })

/-! ## Requests -/

/-- Answers a request. -/
def perform (r : Rehearsal S)
    (request : Engine RehearsedDirectory (Guarded Catalog) (Guarded Script)
      (Recorded (Guarded S)) → RehearsedRequest S α) :
    Except RequestError α × Rehearsal S :=
  let (result, world) := (request r.engine).run r.world
  (result, { r with world := world })

/-- A right with its document. -/
structure RightReport where
  right : Right
  /-- The document as JSON. -/
  document : String
  /-- Whether the document, read again, leads back to the right. -/
  resolves : Bool

/-- Describes a right.  Its document is read again and resolved by another look into the catalog. -/
def describe (r : Rehearsal S) (name : String) (expand : Bool) :
    Except RequestError RightReport × Rehearsal S :=
  r.perform fun e => do
    let right ← e.right name
    let document := DefinitionDocument.schema.toJson (.ofRight right expand)
    match DefinitionDocument.schema.ofJson document with
    | .ok d => do
      let again ← .catalog (d.resolve e.catalog)
      return ⟨right, document, again = right⟩
    | .error _ => return ⟨right, document, false⟩

/-- A check of a right with what its caller has noted about the deciding grant afterwards. -/
structure CheckReport where
  result : Except RequestError Decision
  noted : DecidingGrant

/-- Checks a right for a caller that has noted a deciding grant before. -/
def check (r : Rehearsal S) (noted : DecidingGrant) (target : TargetAddress) (account : Locator)
    (right : String) (attrs : Option AttrValues) : CheckReport × Rehearsal S :=
  let (result, after) := r.perform fun e => e.checkRight target account right attrs
  (⟨result, Engine.noteAfter noted result⟩, after)

/-- Calls the directory without the engine. -/
def askDirectory (r : Rehearsal S)
    (op : DirectoryService RehearsedDirectory → Operation RehearsedDirectory α) :
    Except ServiceError α × Rehearsal S :=
  let (result, directory) := (op r.engine.directory).run r.world.directory
  (result, { r with world.directory := directory })

/-- Calls the store without the engine. -/
def askStore (r : Rehearsal S)
    (op : StoreService (Recorded (Guarded S)) → Operation (Recorded (Guarded S)) α) :
    Except ServiceError α × Rehearsal S :=
  let (result, store) := (op r.engine.store).run r.world.store
  (result, { r with world.store := store })

/-- The grants that the store itself holds on a target. -/
def grantsOn (store : StoreService S) (r : Rehearsal S) (target : TargetEntry) :
    Except ServiceError (List Grant) :=
  ((store.grants target).run r.stored).1

/-- The grants that the store itself holds on the target of an address, if there is one. -/
def grantsAt (store : StoreService S) (r : Rehearsal S) (target : TargetAddress) :
    Option (Except ServiceError (List Grant)) :=
  match r.directory.lookupTarget target.type target.locator with
  | .ok entry => some (r.grantsOn store entry)
  | .error _ => none

/-- A change of grants with what it leaves behind. -/
structure MutationReport (α : Type) where
  result : Except RequestError α
  /-- The grants on the target afterwards, if there is such a target. -/
  grants : Option (Except ServiceError (List Grant))
  /-- How often the change called the store. -/
  storeCalls : Nat
  /-- How often the change asked the evaluator for a decision. -/
  decisions : Nat

/-- Carries out a change of the grants on a target, and reports on it. -/
def mutate (store : StoreService S) (r : Rehearsal S) (target : TargetAddress)
    (request : Engine RehearsedDirectory (Guarded Catalog) (Guarded Script)
      (Recorded (Guarded S)) → RehearsedRequest S α) :
    MutationReport α × Rehearsal S :=
  let (result, after) := r.perform request
  ({ result := result
     grants := after.grantsAt store target
     storeCalls := after.storeCalls.length - r.storeCalls.length
     decisions := after.decisionCount - r.decisionCount },
    after)

end Rehearsal

end Delegation
