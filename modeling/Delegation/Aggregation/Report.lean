/-
# Reports over all target types

A report holds everything that one grantee can do, target type by target type.

## Key constructions

* `RightsReport` — the rights of a grantee on every target type.
* `RightsReport.on` — the rights on one type.
* `RightsReport.add` — adds rights on some entries of one type.
* `RightsReport.attempt` — the report after a contribution, added or refused.
-/
import Delegation.Aggregation

namespace Delegation

/-- Everything that one grantee can do. -/
structure RightsReport where
  /-- The code of the grantee's type, as the caller spells it. -/
  granteeType : String
  granteeId : String
  granteeName : String
  types : Keyed TypeRights.type

namespace RightsReport

/-- The report without rights, with a part for each target type. -/
def start (granteeType granteeId granteeName : String) : RightsReport :=
  ⟨granteeType, granteeId, granteeName, .ofList _ (TargetType.all.map .none)⟩

/-- The rights on one target type. -/
def on (r : RightsReport) (type : TargetType) : TypeRights :=
  (r.types.get? type).getD (.none type)

/-- Adds rights on some entries of a type. -/
def add (r : RightsReport) (type : TargetType) (c : Contribution) :
    Except NotDomained RightsReport := do
  let rights ← (r.on type).add c
  return { r with types := r.types.insert rights }

/-- The report after a contribution.  One that is refused changes nothing. -/
def attempt (r : RightsReport) (op : TargetType × Contribution) : RightsReport :=
  match r.add op.1 op.2 with
  | .ok r' => r'
  | .error _ => r

/-- The events of adding rights on some entries of a type. -/
def events (r : RightsReport) (type : TargetType) (c : Contribution) : List Event :=
  (r.on type).events c

end RightsReport

end Delegation
