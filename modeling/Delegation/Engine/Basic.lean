/-
# The engine

The engine answers requests with the help of its collaborators and keeps no state of its own.
What a request leaves behind is the states of the collaborators and the log.

## Key constructions

* `World` — the states of the collaborators and the log.
* `Request` — a computation on a world that may be refused; the world outlives the refusal.
* `Engine`, `Engine.create` — collaborators with a configuration.
-/
import Delegation.Engine.Error
import Delegation.Service

namespace Delegation

/-- The states of the four services, and the events so far, the oldest first. -/
structure World (D C E S : Type) where
  directory : D
  catalog : C
  evaluator : E
  store : S
  log : List Event

/-- A computation on a world that may be refused. -/
abbrev Request (D C E S α : Type) : Type := ExceptT RequestError (StateM (World D C E S)) α

namespace Request

variable {D C E S α : Type}

/-- Runs an operation of the directory and looks at its result. -/
def tryDirectory (op : Operation D α) : Request D C E S (Except ServiceError α) := fun w =>
  let (result, d) := op w.directory
  (.ok result, { w with directory := d })

/-- Passes the failure of a service on as a refusal. -/
def orRefuse : Except ServiceError α → Except RequestError α
  | .ok a => .ok a
  | .error e => .error (.ofService e)

/-- Runs an operation of the directory. -/
def directory (op : Operation D α) : Request D C E S α := fun w =>
  let (result, d) := op w.directory
  (orRefuse result, { w with directory := d })

/-- Runs an operation of the catalog. -/
def catalog (op : Operation C α) : Request D C E S α := fun w =>
  let (result, c) := op w.catalog
  (orRefuse result, { w with catalog := c })

/-- Runs an operation of the evaluator. -/
def evaluator (op : Operation E α) : Request D C E S α := fun w =>
  let (result, e) := op w.evaluator
  (orRefuse result, { w with evaluator := e })

/-- Runs an operation of the store. -/
def store (op : Operation S α) : Request D C E S α := fun w =>
  let (result, s) := op w.store
  (orRefuse result, { w with store := s })

/-- Adds events to the log. -/
def note (events : List Event) : Request D C E S Unit := fun w =>
  (.ok (), { w with log := w.log ++ events })

/-- Refuses an invalid request. -/
def check (result : Except InvalidRequest α) : Request D C E S α :=
  match result with
  | .ok a => pure a
  | .error e => throw (.invalid e)

end Request

/-! ## Engines -/

/-- How an engine is configured. -/
structure Config where
  /-- Whether a grant may be revoked by the identifier of a grantee that is gone. -/
  orphanRevoke : Bool
  /-- Whether lists of grants show the names of grantees, not their identifiers. -/
  resolveGranteeNames : Bool
deriving DecidableEq

/-- Collaborators with a configuration. -/
structure Engine (D C E S : Type) extends Collaborators D C E S where
  config : Config

/-- An engine, if the evaluator can tell who may pass rights on. -/
def Engine.create {D C E S : Type} (collaborators : Collaborators D C E S) (config : Config) :
    Except RequestError (Engine D C E S) :=
  if collaborators.evaluator.supportsDelegation then .ok ⟨collaborators, config⟩
  else .error .noDelegation

/-! ## Addresses -/

/-- How a request addresses a target. -/
structure TargetAddress where
  type : TargetType
  locator : Locator
deriving DecidableEq

/-- The address of an entry that exists once. -/
def TargetAddress.single (type : TargetType) : TargetAddress := ⟨type, .byName, type.code⟩

/-- How a request addresses a grantee. -/
structure GranteeAddress where
  type : GranteeType
  locator : Locator
deriving DecidableEq

end Delegation
