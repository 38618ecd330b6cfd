/-
# Snapshots of effective rights

A snapshot says everything that one grantee can do on one target: its preset rights, and the
attributes it can write and read.  It is built from steps, and a step only ever adds.

## Key constructions

* `AttrConstraint`, `EffectiveAttr` — an attribute with its default values and constraint.
* `AttrRights` — the rights over attributes on one side, writing or reading.
* `Snapshot` — the rights of a grantee on a target.
* `SnapshotStep`, `Snapshot.build` — the steps that fill a snapshot.
* `Snapshot.digest`, `Snapshot.sameRights` — equality of rights, whatever the identities.
-/
import Delegation.Digest
import Delegation.Target

namespace Delegation

/-! ## Attributes -/

/-- The limits on the values that may be written to an attribute. -/
structure AttrConstraint where
  min : Option String
  max : Option String
  /-- The allowed values; none at all means any value. -/
  values : NameSet
deriving DecidableEq

/-- Whether the constraint allows every value. -/
def AttrConstraint.isEmpty (c : AttrConstraint) : Bool :=
  c.min.isNone && c.max.isNone && c.values.isEmpty

/-- An attribute that a grantee can write or read. -/
structure EffectiveAttr where
  name : String
  defaults : NameSet
  constraint : Option AttrConstraint
deriving DecidableEq

/-- An attribute without defaults and constraint. -/
def EffectiveAttr.bare (name : String) : EffectiveAttr := ⟨name, .empty, none⟩

/-- Attributes in the order of their names. -/
abbrev AttrTable : Type := Keyed EffectiveAttr.name

/-- The rights over attributes on one side. -/
structure AttrRights where
  /-- Whether every attribute is covered; the listed ones are then not all of them. -/
  every : Bool
  listed : AttrTable
deriving DecidableEq

namespace AttrRights

/-- No attribute at all. -/
def none : AttrRights := ⟨false, .empty⟩

/-- Whether no attribute is covered. -/
def isNone (a : AttrRights) : Bool := !a.every && a.listed.isEmpty

/-- The same rights over every attribute. -/
def coverEvery (a : AttrRights) : AttrRights := { a with every := true }

/-- The rights over one more attribute; an attribute listed before under its name is replaced. -/
def list (a : AttrRights) (attr : EffectiveAttr) : AttrRights :=
  { a with listed := a.listed.insert attr }

/-- The digest of one side. -/
def digest (a : AttrRights) : AttrsDigest := .ofNames a.every a.listed.keys

end AttrRights

/-! ## Snapshots -/

/-- The rights of one grantee on one target. -/
structure Snapshot where
  targetType : TargetType
  /-- Empty for targets that have no identifier. -/
  targetId : String
  targetName : String
  granteeId : String
  granteeName : String
  presets : NameSet
  setAttrs : AttrRights
  getAttrs : AttrRights
deriving DecidableEq

/-- One addition to a snapshot. -/
inductive SnapshotStep
  | preset (right : String)
  | setEvery
  | getEvery
  | set (attr : EffectiveAttr)
  | get (attr : EffectiveAttr)

namespace Snapshot

/-- The snapshot that gives no right. -/
def start (targetType : TargetType) (targetId : Option String)
    (targetName granteeId granteeName : String) : Snapshot :=
  ⟨targetType, targetId.getD "", targetName, granteeId, granteeName, .empty, .none, .none⟩

/-- Adds what a step says. -/
def apply (s : Snapshot) : SnapshotStep → Snapshot
  | .preset right => { s with presets := s.presets.insert right }
  | .setEvery => { s with setAttrs := s.setAttrs.coverEvery }
  | .getEvery => { s with getAttrs := s.getAttrs.coverEvery }
  | .set attr => { s with setAttrs := s.setAttrs.list attr }
  | .get attr => { s with getAttrs := s.getAttrs.list attr }

/-- Applies steps in order. -/
def build (s : Snapshot) (steps : List SnapshotStep) : Snapshot := steps.foldl apply s

/-- Whether the snapshot gives no right at all. -/
def hasNoRight (s : Snapshot) : Bool := s.presets.isEmpty && s.setAttrs.isNone && s.getAttrs.isNone

/-- The digest over the names of the rights given. -/
def digest (s : Snapshot) : RightsDigest :=
  ⟨.ofNames s.presets.toList, s.setAttrs.digest, s.getAttrs.digest⟩

/-- Whether two snapshots give the same rights, whatever their targets and grantees. -/
def sameRights (a b : Snapshot) : Bool := a.digest = b.digest

theorem sameRights_iff {a b : Snapshot} : a.sameRights b = true ↔ a.digest = b.digest := by
  unfold sameRights
  exact decide_eq_true_iff

end Snapshot

end Delegation
