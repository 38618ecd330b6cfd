/-
# The scripted evaluator

An evaluator that infers nothing: all its answers were put into a script before.

## Key constructions

* `Script` — the answers.
* `Placement` — where a right is reported among the rights on all targets.
* `Script.service` — the script as an evaluator.
-/
import Delegation.Service
import Delegation.Snapshot.Profile

namespace Delegation

/-! ## Scripts -/

/-- Who is asked about, and which right. -/
structure ActorRight where
  actorId : String
  right : String
deriving DecidableEq

/-- A question whether a grantee may exercise a right on a target. -/
structure Question where
  granteeId : String
  targetKey : String
  right : String
deriving DecidableEq

/-- Where rights are reported. -/
inductive Placement
  | all
  | entry (name : String)
  | aggregation (names : NameSet)
  | domain (name : String)

/-- Rights of a grantee on some entries of a type. -/
structure PlacedRights where
  granteeId : String
  type : TargetType
  placement : Placement
  profile : RightsProfile

/-- The answers of an evaluator.  The newest answer comes first. -/
structure Script where
  /-- The rights that actors may pass on. -/
  delegable : List ActorRight
  /-- The rights that actors hold only in part. -/
  partiallyDenied : List ActorRight
  /-- The questions that have an answer, with the grant that decides if one is named. -/
  decisions : List (Question × Option DecidingGrant)
  /-- The rights on targets, by grantee identifier and target name. -/
  effective : List ((String × String) × RightsProfile)
  /-- The rights on all targets, the oldest first. -/
  placements : List PlacedRights
  /-- How often the evaluator was asked for a decision. -/
  decisionCount : Nat

namespace Script

/-- The script without answers. -/
def empty : Script := ⟨[], [], [], [], [], 0⟩

/-- Lets an actor pass a right on. -/
def allowDelegation (s : Script) (a : ActorRight) : Script :=
  { s with delegable := a :: s.delegable }

/-- Reports that an actor holds a right only in part. -/
def denyPartially (s : Script) (a : ActorRight) : Script :=
  { s with partiallyDenied := a :: s.partiallyDenied }

/-- Answers a question: allowed without a deciding grant, or decided by one. -/
def settle (s : Script) (q : Question) (via : Option DecidingGrant) : Script :=
  { s with decisions := (q, via) :: s.decisions }

/-- Gives a grantee rights on the target of a name. -/
def setEffective (s : Script) (granteeId targetName : String) (p : RightsProfile) : Script :=
  { s with effective := ((granteeId, targetName), p) :: s.effective }

/-- Gives a grantee rights on some entries. -/
def place (s : Script) (p : PlacedRights) : Script :=
  { s with placements := s.placements ++ [p] }

/-! ## Answers -/

/-- Whether an actor may pass a right on. -/
def mayDelegate (s : Script) (actor : GranteeEntry) (right : Right) : Bool :=
  s.delegable.contains ⟨actor.id, right.name⟩

/-- The newest answer to a question; without one the right may not be exercised. -/
def answer (s : Script) (q : Question) : Decision :=
  match s.decisions.find? fun d => d.1 = q with
  | none => ⟨false, none⟩
  | some (_, none) => ⟨true, none⟩
  | some (_, some via) => ⟨!via.isNegative, some via⟩

/-- The steps for the rights of a grantee on a target. -/
def effectiveSteps (s : Script) (grantee : GranteeEntry) (target : TargetEntry)
    (expandSet expandGet : Bool) : List SnapshotStep :=
  match s.effective.find? fun e => e.1 = (grantee.id, target.name) with
  | some (_, profile) => profile.steps expandSet expandGet
  | none => []

/-- The rights at a place as a contribution to a report. -/
def PlacedRights.contribution (p : PlacedRights) (grantee : GranteeEntry)
    (expandSet expandGet : Bool) : Contribution :=
  let rights (name : String) : Snapshot :=
    p.profile.fill expandSet expandGet (.start p.type none name grantee.id grantee.name)
  match p.placement with
  | .all => .all (rights "")
  | .entry name => .entry name (rights name)
  | .aggregation names => .aggregation names (rights "")
  | .domain name => .domain name (rights name)

/-- The contributions to the report on a grantee, in the order of the script. -/
def contributions (s : Script) (grantee : GranteeEntry) (expandSet expandGet : Bool) :
    List (TargetType × Contribution) :=
  (s.placements.filter fun p => p.granteeId = grantee.id).map fun p =>
    (p.type, PlacedRights.contribution p grantee expandSet expandGet)

/-- Fails if an actor holds a right only in part. -/
def checkPartiallyDenied (s : Script) (actor : GranteeEntry) (target : TargetEntry)
    (right : Right) : Except ServiceError Unit :=
  if s.partiallyDenied.contains ⟨actor.id, right.name⟩ then
    .error (.permissionDenied ("right " ++ right.name ++ " is partially denied to " ++ actor.name ++
      " on " ++ target.name))
  else .ok ()

/-- The decision on a right, to exercise it or to pass it on. -/
def decision (s : Script) (actor : GranteeEntry) (target : TargetEntry) (right : Right)
    (forGrant : Bool) : Decision :=
  if forGrant then ⟨s.mayDelegate actor right, none⟩
  else s.answer ⟨actor.id, target.aclKey, right.name⟩

/-- The script as an evaluator. -/
def service (supportsDelegation : Bool) : EvaluatorService Script where
  supportsDelegation := supportsDelegation
  canPerform actor target right forGrant _ := .change fun s =>
    (s.decision actor target right forGrant, { s with decisionCount := s.decisionCount + 1 })
  effectiveRights grantee target expandSet expandGet := .ask fun s =>
    .ok (s.effectiveSteps grantee target expandSet expandGet)
  allEffectiveRights grantee expandSet expandGet := .ask fun s =>
    .ok (s.contributions grantee expandSet expandGet)
  checkPartiallyDenied actor target right := .ask fun s => s.checkPartiallyDenied actor target right

end Script

end Delegation
