/-
# Aggregations

Targets on which a grantee has the same rights are reported together.  An aggregation is a set
of names with the rights they share, and the rights on one target type are the rights on every
entry, the aggregations of named entries, and the aggregations of domains whose entries are
covered as a whole.

## Key constructions

* `Aggregation` — names and a snapshot of the rights they share.
* `Aggregation.leave`, `Aggregation.join` — moving names in a list of aggregations.
* `TypeRights` — the rights on the entries of one target type.
* `Contribution`, `TypeRights.add` — what can be added to them.
* `TypeRights.attempt` — the rights after a contribution, added or refused.
-/
import Delegation.Event
import Delegation.Snapshot

namespace Delegation

/-- Names of targets with the rights they share. -/
structure Aggregation where
  names : NameSet
  rights : Snapshot
deriving DecidableEq

namespace Aggregation

/-- Whether the aggregation lists a name. -/
def lists (a : Aggregation) (name : String) : Bool := a.names.contains name

/-- Whether no name is left. -/
def isEmpty (a : Aggregation) : Bool := a.names.isEmpty

/-- Whether the rights shared are those of the snapshot. -/
def hasRights (a : Aggregation) (rights : Snapshot) : Bool := a.rights.sameRights rights

/-- The aggregation without a name. -/
def without (a : Aggregation) (name : String) : Aggregation :=
  { a with names := a.names.erase name }

/-- The aggregation with more names. -/
def including (a : Aggregation) (names : NameSet) : Aggregation :=
  { a with names := names.toList.foldl Keyed.insert a.names }

/-! ## Lists of aggregations -/

/-- Takes a name out of the first aggregation that lists it.  An aggregation that becomes empty
stays at its place. -/
def leave (name : String) : List Aggregation → List Aggregation
  | [] => []
  | a :: rest => if a.lists name then a.without name :: rest else a :: leave name rest

/-- Adds names to the first aggregation with the rights of the snapshot, or else to a new one at
the end. -/
def join (names : NameSet) (rights : Snapshot) : List Aggregation → List Aggregation
  | [] => [⟨names, rights⟩]
  | a :: rest =>
    if a.hasRights rights then a.including names :: rest else a :: join names rights rest

/-- Moves a name to the aggregation with the rights of the snapshot. -/
def move (name : String) (rights : Snapshot) (as : List Aggregation) : List Aggregation :=
  join (NameSet.ofList [name]) rights (leave name as)

/-- The event of a move. -/
def moveEvent (name : String) (rights : Snapshot) (as : List Aggregation) : Event :=
  if as.any (·.hasRights rights) then .joinedAggregation name rights.digest
  else .newAggregation name rights.digest

end Aggregation

/-! ## Rights on one target type -/

/-- The rights of a grantee on the entries of one target type. -/
structure TypeRights where
  type : TargetType
  /-- Rights on every entry of the type. -/
  all : Option Snapshot
  /-- Rights on named entries. -/
  entries : List Aggregation
  /-- Rights on every entry of named domains, for types whose entries live in domains. -/
  domains : Option (List Aggregation)
deriving DecidableEq

/-- Domains were named for a type whose entries live in no domain. -/
structure NotDomained where
  type : TargetType
deriving DecidableEq, Repr

/-- The text that reports the misuse of domains. -/
def NotDomained.message (e : NotDomained) : String :=
  "target type " ++ e.type.code ++ " cannot be aggregated by domain"

/-- Rights to be added on some of the entries of a type. -/
inductive Contribution
  | all (rights : Snapshot)
  | entry (name : String) (rights : Snapshot)
  /-- Several names at once.  None of them should have been placed before. -/
  | aggregation (names : NameSet) (rights : Snapshot)
  | domain (name : String) (rights : Snapshot)

/-- The rights that a contribution adds. -/
def Contribution.rights : Contribution → Snapshot
  | all rights | entry _ rights | aggregation _ rights | domain _ rights => rights

namespace TypeRights

/-- No right on any entry. -/
def none (type : TargetType) : TypeRights :=
  ⟨type, .none, [], if type.isDomained then some [] else .none⟩

/-- Whether rights on whole domains are recorded apart. -/
def isDomained (t : TypeRights) : Bool := t.domains.isSome

/-- The aggregations of entries and of domains. -/
def aggregations (t : TypeRights) : List Aggregation := t.entries ++ t.domains.getD []

/-- The aggregations that list a name, of an entry or of a domain. -/
def holding (t : TypeRights) (name : String) : List Aggregation :=
  t.aggregations.filter (·.lists name)

/-- Whether no right is recorded. -/
def isEmpty (t : TypeRights) : Bool := t.all.isNone && t.aggregations.all (·.isEmpty)

/-- Whether nothing was ever recorded: there is not even an aggregation without names. -/
def isUntouched (t : TypeRights) : Bool := t.all.isNone && t.aggregations.isEmpty

/-- Sets the rights on every entry. -/
def setAll (t : TypeRights) (rights : Snapshot) : TypeRights :=
  if rights.hasNoRight then t else { t with all := some rights }

/-- Places one entry, wherever it was before. -/
def addEntry (t : TypeRights) (name : String) (rights : Snapshot) : TypeRights :=
  if rights.hasNoRight then t else { t with entries := Aggregation.move name rights t.entries }

/-- Places several entries that have no place yet.  An entry that has one keeps it as well. -/
def addAggregation (t : TypeRights) (names : NameSet) (rights : Snapshot) : TypeRights :=
  if rights.hasNoRight then t else { t with entries := Aggregation.join names rights t.entries }

/-- Places one domain, wherever it was before. -/
def addDomain (t : TypeRights) (name : String) (rights : Snapshot) :
    Except NotDomained TypeRights :=
  if rights.hasNoRight then .ok t
  else match t.domains with
    | some domains => .ok { t with domains := some (Aggregation.move name rights domains) }
    | .none => .error ⟨t.type⟩

/-- Adds a contribution.  One that gives no right changes nothing. -/
def add (t : TypeRights) : Contribution → Except NotDomained TypeRights
  | .all rights => .ok (t.setAll rights)
  | .entry name rights => .ok (t.addEntry name rights)
  | .aggregation names rights => .ok (t.addAggregation names rights)
  | .domain name rights => t.addDomain name rights

/-- The rights after a contribution.  One that is refused changes nothing. -/
def attempt (t : TypeRights) (c : Contribution) : TypeRights :=
  match t.add c with
  | .ok t' => t'
  | .error _ => t

/-- The events of adding a contribution. -/
def events (t : TypeRights) (c : Contribution) : List Event :=
  if c.rights.hasNoRight then []
  else match c with
    | .all _ => if t.all.isSome then [.replacedAll t.type] else []
    | .entry name rights => [Aggregation.moveEvent name rights t.entries]
    | .aggregation _ _ => []
    | .domain name rights =>
      match t.domains with
      | some domains => [Aggregation.moveEvent name rights domains]
      | .none => []

end TypeRights

end Delegation
