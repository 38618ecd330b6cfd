/-
# Entries

What a directory knows about targets and grantees.

## Key constructions

* `TargetEntry` — a target, with the key under which its grants are stored.
* `GranteeEntry` — a grantee with its standing as an admin.
* `GranteeEntry.mayHoldAdminRights` — who may be given admin rights.
* `Decision` — the answer to whether a right may be exercised.
-/
import Delegation.Grantee
import Delegation.Right

namespace Delegation

/-- A target found in a directory. -/
structure TargetEntry where
  type : TargetType
  /-- Absent for entries that exist once and for entries that do not exist yet. -/
  id : Option String
  name : String
  /-- The domain in which the entry lives. -/
  domain : Option String
deriving DecidableEq

namespace TargetEntry

/-- A target outside of domains. -/
def plain (type : TargetType) (id : Option String) (name : String) : TargetEntry :=
  ⟨type, id, name, none⟩

/-- The identifier, or else the name. -/
def aclKey (t : TargetEntry) : String := t.id.getD t.name

/-- The key under which the grants on the target are stored. -/
def key (t : TargetEntry) : TargetKey := ⟨t.type, t.aclKey⟩

end TargetEntry

/-- The standing of a grantee as an admin. -/
inductive AdminStanding
  | none
  /-- An account that administers by the rights granted to it. -/
  | delegated
  /-- An account that may do everything. -/
  | global
  /-- A group whose members administer by the rights granted to it. -/
  | group
deriving DecidableEq, Repr

namespace AdminStanding

/-- Every standing. -/
def all : List AdminStanding := [none, delegated, global, group]

/-- The word for a standing. -/
def label : AdminStanding → String
  | none => "none"
  | delegated => "delegated"
  | global => "global"
  | group => "group"

/-- The standing that a word names. -/
def ofLabel? (label : String) : Option AdminStanding := all.find? fun s => s.label = label

end AdminStanding

/-- A grantee found in a directory. -/
structure GranteeEntry where
  type : GranteeType
  id : String
  name : String
  admin : AdminStanding
deriving DecidableEq

namespace GranteeEntry

/-- A grantee without admin standing. -/
def plain (type : GranteeType) (id name : String) : GranteeEntry := ⟨type, id, name, .none⟩

/-- The key under which the directory files the grantee. -/
def key (g : GranteeEntry) : GranteeKey := ⟨g.type, g.id⟩

/-- Whether admin rights may be granted: to delegated admins and admin groups only.  A global
admin holds every right already and is not given any. -/
def mayHoldAdminRights (g : GranteeEntry) : Bool :=
  match g.type with
  | .user => g.admin = .delegated
  | .group => g.admin = .group
  | _ => false

end GranteeEntry

/-! ## Decisions -/

/-- Values that somebody wants to write to attributes, by attribute. -/
abbrev AttrValues : Type := Keyed (Prod.fst : String × List String → String)

/-- The grant that decided whether a right may be exercised. -/
structure DecidingGrant where
  targetType : TargetType
  targetName : String
  granteeType : GranteeType
  granteeName : String
  right : String
  /-- Whether the grant denies the right. -/
  isNegative : Bool
deriving DecidableEq

/-- Whether a right may be exercised, and the grant that decided it if one is named. -/
structure Decision where
  allowed : Bool
  via : Option DecidingGrant
deriving DecidableEq

end Delegation
