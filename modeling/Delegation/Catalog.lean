/-
# The catalog of rights

## Key constructions

* `Catalog` — rights by name.
* `Catalog.service` — the catalog as a service.
-/
import Delegation.Service

namespace Delegation

/-- The definitions of rights, by name. -/
abbrev Catalog : Type := Keyed Right.name

namespace Catalog

/-- The right with a name. -/
def right (c : Catalog) (name : String) : Except ServiceError Right :=
  match c.get? name with
  | some r => .ok r
  | none => .error (.notFound .right name)

/-- The catalog as a service. -/
def service : CatalogService Catalog where
  right name := .ask fun c => right c name
  allRights := .ask .ok

end Catalog

end Delegation
