/-
# Events

What the engine reports while it works.  Each event has a level, a message and named fields.

## Key constructions

* `Event` — the events by cause.
* `Event.level`, `Event.message`, `Event.fields` — how a log shows an event.
-/
import Delegation.Digest
import Delegation.Grant

namespace Delegation

/-- How important an event is. -/
inductive EventLevel
  | info
  | warn
  | debug
deriving DecidableEq, Repr

/-- The word for a level. -/
def EventLevel.label : EventLevel → String
  | info => "info"
  | warn => "warn"
  | debug => "debug"

/-- Something that happened in the engine. -/
inductive Event
  /-- A name was added to an aggregation that was there. -/
  | joinedAggregation (name : String) (digest : RightsDigest)
  /-- A name opened an aggregation. -/
  | newAggregation (name : String) (digest : RightsDigest)
  /-- The rights on every entry of a type were given twice. -/
  | replacedAll (type : TargetType)
  /-- A grantee may not exercise a right. -/
  | checkDenied (grantee target right : String)
  /-- An actor may not pass on a right. -/
  | delegationDenied (actor right : String)
  | granted (targetType : TargetType) (target : String) (grant : Grant)
  | revoked (targetType : TargetType) (target : String) (grant : Grant)
  /-- A grant is to be revoked whose grantee the directory does not know. -/
  | granteeMissing (key kind : String)

namespace Event

/-- The level of an event. -/
def level : Event → EventLevel
  | joinedAggregation .. | newAggregation .. | checkDenied .. | delegationDenied .. => .debug
  | replacedAll .. | granteeMissing .. => .warn
  | granted .. | revoked .. => .info

/-- The message of an event. -/
def message : Event → String
  | joinedAggregation .. => "joined aggregation"
  | newAggregation .. => "new aggregation"
  | replacedAll .. => "replacing rights on all entries"
  | checkDenied .. => "check right denied"
  | delegationDenied .. => "delegation denied"
  | granted .. => "granted right"
  | revoked .. => "revoked right"
  | granteeMissing .. => "revoke: no such grantee"

/-- The named fields of an event. -/
def fields : Event → List (String × String)
  | joinedAggregation name digest | newAggregation name digest =>
    [("entry", name), ("digest", digest.text)]
  | replacedAll type => [("target_type", type.code)]
  | checkDenied grantee target right =>
    [("grantee", grantee), ("target", target), ("right", right)]
  | delegationDenied actor right => [("actor", actor), ("right", right)]
  | granted type target grant | revoked type target grant =>
    [("target_type", type.code), ("target", target), ("grant", grant.text)]
  | granteeMissing key kind => [("grantee", key), ("kind", kind)]

end Event

end Delegation
