/-
# Directories with aliases

A directory may resolve an account to an entry of another type.  An alias is a key under which an
account lookup finds the group of that key.

## Key constructions

* `Aliased` — a directory with aliases.
* `Aliased.service` — its lookups.
-/
import Delegation.Service

namespace Delegation

/-- The state of a directory with the keys that are aliases. -/
structure Aliased (σ : Type) where
  inner : σ
  aliases : List String

namespace Aliased

variable {σ : Type}

/-- Runs an operation of the directory itself. -/
def forward {α : Type} (op : Operation σ α) : Operation (Aliased σ) α :=
  Operation.onPart inner (fun a s => { a with inner := s }) op

/-- The type that is looked up for a type and a key. -/
def resolvedType (a : Aliased σ) (type : GranteeType) (key : String) : GranteeType :=
  if type = .user ∧ a.aliases.contains key then .group else type

/-- A directory that follows aliases. -/
def service (d : DirectoryService σ) : DirectoryService (Aliased σ) where
  lookupTarget type loc := forward (d.lookupTarget type loc)
  lookupGrantee type loc := fun a =>
    forward (d.lookupGrantee (a.resolvedType type loc.key) loc) a
  pseudoTarget type domain classOfService := forward (d.pseudoTarget type domain classOfService)

end Aliased

end Delegation
