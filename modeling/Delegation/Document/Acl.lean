/-
# Documents of access control lists

## Key constructions

* `GrantDocument` — a grant with its display name, the modifier as two flags.
* `AclDocument` — the grants of a list.
* `AclDocument.ofAcl`, `AclDocument.toAcl` — between lists and documents.
-/
import Delegation.Acl
import Delegation.Document.Code

namespace Delegation

/-- A grant in a document. -/
structure GrantDocument where
  granteeType : GranteeType
  id : String
  name : String
  right : String
  denies : Bool
  delegates : Bool
deriving DecidableEq

namespace GrantDocument

/-- The flags may be missing, and are always written. -/
def schema : Schema GrantDocument :=
  .view
    (.record <|
      .field "type" GranteeType.schema .required <|
      .field "id" .text .required <|
      .field "name" .text .required <|
      .field "right" .text .required <|
      .field "deny" .flag (.lenient false) <|
      .field "canDelegate" .flag (.lenient false) .none)
    (fun d => (d.granteeType, d.id, d.name, d.right, d.denies, d.delegates, ()))
    (fun (granteeType, id, name, right, denies, delegates, _) =>
      ⟨granteeType, id, name, right, denies, delegates⟩)
    (fun _ => rfl)

/-- The document of an entry. -/
def ofEntry (e : AclEntry) : GrantDocument :=
  ⟨e.grant.granteeType, e.grant.granteeId, e.granteeName, e.grant.right, e.grant.isDeny,
    e.grant.canDelegate⟩

/-- The entry of a document.  A denial wins over leave to delegate. -/
def toEntry (d : GrantDocument) : AclEntry :=
  ⟨⟨d.granteeType, d.id, d.right, Modifier.ofFlags d.denies d.delegates⟩, d.name⟩

end GrantDocument

/-- An access control list as a document. -/
structure AclDocument where
  grants : List GrantDocument
deriving DecidableEq

namespace AclDocument

/-- A document without grants is empty. -/
def schema : Schema AclDocument :=
  .view (.record (.field "grants" (.list GrantDocument.schema) (.lenient []) .none))
    (fun d => (d.grants, ())) (fun (grants, _) => ⟨grants⟩) (fun _ => rfl)

/-- The document of a list. -/
def ofAcl (acl : Acl) : AclDocument := ⟨acl.toList.map .ofEntry⟩

/-- The list of a document. -/
def toAcl (d : AclDocument) : Acl := .ofEntries (d.grants.map GrantDocument.toEntry)

end AclDocument

end Delegation
