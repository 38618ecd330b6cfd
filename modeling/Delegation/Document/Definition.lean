/-
# Documents of right definitions

A document describes a right and is not trusted as its definition: a catalog is asked for the
right of that name.

## Key constructions

* `DefinitionDocument` — the description of a right.
* `DefinitionDocument.ofRight` — describes a right, with or without the attributes of a right
  over every attribute.
* `DefinitionDocument.resolve` — asks a catalog for the right.
-/
import Delegation.Document.Rights
import Delegation.Service

namespace Delegation

/-- The description of a right. -/
structure DefinitionDocument where
  name : String
  kind : String
  targetTypes : String
  description : String
  /-- Present for attribute rights. -/
  attrs : Option AttrsDocument
  /-- Present for combo rights. -/
  rights : Option (List String)
deriving DecidableEq

namespace DefinitionDocument

/-- What does not apply to the kind of right is left out. -/
def schema : Schema DefinitionDocument :=
  .view
    (.record <|
      .field "name" .text .required <|
      .field "type" .text .required <|
      .field "targetType" .text .required <|
      .field "desc" .text .required <|
      .field "attrs" (.maybe AttrsDocument.schema) .ifSome <|
      .field "rights" (.maybe (.list .text)) .ifSome .none)
    (fun d => (d.name, d.kind, d.targetTypes, d.description, d.attrs, d.rights, ()))
    (fun (name, kind, targetTypes, description, attrs, rights, _) =>
      ⟨name, kind, targetTypes, description, attrs, rights⟩)
    (fun _ => rfl)

/-- The attributes of a scope.  Those of a scope that covers every attribute are listed only if
`expand` is set. -/
def attrsOfScope (expand : Bool) : AttrScope → AttrsDocument
  | .every expanded => ⟨true, if expand then expanded.toList.map .bare else []⟩
  | .listed attrs => ⟨false, attrs.toList.map .bare⟩

/-- Describes a right. -/
def ofRight (r : Right) (expand : Bool) : DefinitionDocument :=
  ⟨r.name, r.kind.code, r.targetTypesText, r.description, r.kind.scope?.map (attrsOfScope expand),
    r.kind.rights?⟩

/-- The right that a catalog has under the name in the document.  Nothing else in the document is
trusted. -/
def resolve {C : Type} (d : DefinitionDocument) (catalog : CatalogService C) : Operation C Right :=
  catalog.right d.name

end DefinitionDocument

end Delegation
