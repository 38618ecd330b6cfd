/-
# Access control lists

An access control list shows the grants on a target, each with the display name of its
grantee.  A display name can change at any time, so it is no part of an entry's identity: two
entries are the same entry when their grants are equal.

## Key constructions

* `AclEntry` — a grant with the display name of its grantee.
* `AclEntry.sameGrant`, `AclEntry.order` — when entries are the same, and how they are sorted.
* `AclEntry.hashInput` — what a hasher is fed for an entry.
* `Acl` — at most one entry for each grant, in the order of the grants.
* `Acl.ofGrants` — names each grant through a function.
* `Acl.SameGrants` — equality of lists up to display names.
-/
import Delegation.Grant

namespace Delegation

open Std

/-- A grant with the display name of its grantee. -/
structure AclEntry where
  grant : Grant
  granteeName : String
deriving DecidableEq, Inhabited, Repr

/-- The entry that shows a grant under a display name. -/
def Grant.named (g : Grant) (name : String) : AclEntry := ⟨g, name⟩

namespace AclEntry

/-- Whether two entries show the same grant. -/
def sameGrant (a b : AclEntry) : Bool := a.grant = b.grant

/-- Entries are compared as their grants are. -/
def order : AclEntry → AclEntry → Ordering := compareOn grant

instance : Ord AclEntry := ⟨order⟩

instance : TransOrd AclEntry := inferInstanceAs (TransCmp (compareOn grant))

/-- The partial order of entries, by which `<` is decided: all entries can be compared. -/
def partialOrder (a b : AclEntry) : Option Ordering := some (order a b)

instance : LT AclEntry := ⟨fun a b => partialOrder a b = some .lt⟩

instance (a b : AclEntry) : Decidable (a < b) := inferInstanceAs (Decidable (_ = _))

/-- An entry is fed to a hasher as its grant is, without the display name. -/
def hashInput (e : AclEntry) : List HashItem := e.grant.hashInput

instance : Hashable AclEntry := ⟨fun e => hash e.hashInput⟩

end AclEntry

/-- An access control list: one entry for each grant, in the order of the grants. -/
abbrev Acl : Type := Keyed AclEntry.grant

namespace Acl

/-- Collects entries; of those that show one grant, the last one's name is kept. -/
abbrev ofEntries (entries : List AclEntry) : Acl := Keyed.ofList AclEntry.grant entries

/-- Lists grants under the names that a function gives them. -/
def ofGrants (name : Grant → String) (grants : List Grant) : Acl :=
  ofEntries (grants.map fun g => g.named (name g))

/-- The grants shown, in order. -/
abbrev grants (acl : Acl) : List Grant := acl.keys

/-- Whether two lists show the same grants, under whatever names. -/
def SameGrants (a b : Acl) : Prop := a.grants = b.grants

instance (a b : Acl) : Decidable (SameGrants a b) := inferInstanceAs (Decidable (_ = _))

end Acl

end Delegation
