/-
# Serial forms

The layouts in which grants, rights, attributes and digests themselves are kept, as opposed to
the documents that describe them to others.  Nothing is left out, and nothing is checked beyond
the layout.

## Key constructions

* `NameSet.schema`, `Grant.schema`, `AclEntry.schema`, `Right.schema`, `RightsDigest.schema`, … —
  one layout for each type.
-/
import Delegation.Acl
import Delegation.Document.Code
import Delegation.Right
import Delegation.Snapshot

namespace Delegation

/-- A collection is the list of its elements; of elements with one key the last one is kept. -/
def Keyed.schema {α κ : Type} [Ord κ] [Std.TransOrd κ] [Std.LawfulEqOrd κ] (key : α → κ)
    (item : Schema α) : Schema (Keyed key) :=
  .view (.list item) Keyed.toList (Keyed.ofList key) Keyed.ofList_toList

/-- A set of names. -/
def NameSet.schema : Schema NameSet := Keyed.schema id .text

/-! ## Grants -/

/-- The modifier may be missing or null. -/
def Grant.schema : Schema Grant :=
  .view
    (.record <|
      .field "grantee_type" GranteeType.schema .required <|
      .field "grantee_id" .text .required <|
      .field "right" .text .required <|
      .field "modifier" (.maybe Modifier.schema) (.nullable none) .none)
    (fun g => (g.granteeType, g.granteeId, g.right, g.modifier, ()))
    (fun (granteeType, granteeId, right, modifier, _) => ⟨granteeType, granteeId, right, modifier⟩)
    (fun _ => rfl)

/-- A grant and the display name. -/
def AclEntry.schema : Schema AclEntry :=
  .view
    (.record <|
      .field "grant" Grant.schema .required <|
      .field "grantee_name" .text .required .none)
    (fun e => (e.grant, e.granteeName, ()))
    (fun (grant, granteeName, _) => ⟨grant, granteeName⟩)
    (fun _ => rfl)

/-! ## Rights -/

/-- Every attribute with its expansion, or the listed ones. -/
def AttrScope.schema : Schema AttrScope :=
  .view
    (.choice <|
      .carrying "All" (.record (.field "expanded" NameSet.schema .required .none)) <|
      .carrying "Listed" NameSet.schema .none)
    (fun
      | .every expanded => .inl (expanded, ())
      | .listed attrs => .inr (.inl attrs))
    (fun
      | .inl (expanded, _) => .every expanded
      | .inr (.inl attrs) => .listed attrs)
    (fun s => by cases s <;> rfl)

/-- The kind by its name, with what belongs to it. -/
def RightKind.schema : Schema RightKind :=
  .view
    (.choice <|
      .plain "Preset" <|
      .carrying "GetAttrs" AttrScope.schema <|
      .carrying "SetAttrs" AttrScope.schema <|
      .carrying "Combo" (.list .text) .none)
    (fun
      | .preset => .inl ()
      | .getAttrs scope => .inr (.inl scope)
      | .setAttrs scope => .inr (.inr (.inl scope))
      | .combo rights => .inr (.inr (.inr (.inl rights))))
    (fun
      | .inl _ => .preset
      | .inr (.inl scope) => .getAttrs scope
      | .inr (.inr (.inl scope)) => .setAttrs scope
      | .inr (.inr (.inr (.inl rights))) => .combo rights)
    (fun k => by cases k <;> rfl)

/-- A definition as it is, checked or not. -/
def Right.schema : Schema Right :=
  .view
    (.record <|
      .field "name" .text .required <|
      .field "description" .text .required <|
      .field "kind" RightKind.schema .required <|
      .field "target_types" (Keyed.schema id TargetType.schema) .required <|
      .field "user_right" .flag .required .none)
    (fun r => (r.name, r.description, r.kind, r.targetTypes, r.isUserRight, ()))
    (fun (name, description, kind, targetTypes, isUserRight, _) =>
      ⟨name, description, kind, targetTypes, isUserRight⟩)
    (fun _ => rfl)

/-! ## Attributes -/

/-- The limits may be missing or null. -/
def AttrConstraint.schema : Schema AttrConstraint :=
  .view
    (.record <|
      .field "min" (.maybe .text) (.nullable none) <|
      .field "max" (.maybe .text) (.nullable none) <|
      .field "values" NameSet.schema .required .none)
    (fun c => (c.min, c.max, c.values, ()))
    (fun (min, max, values, _) => ⟨min, max, values⟩)
    (fun _ => rfl)

/-- The constraint may be missing or null. -/
def EffectiveAttr.schema : Schema EffectiveAttr :=
  .view
    (.record <|
      .field "name" .text .required <|
      .field "default_values" NameSet.schema .required <|
      .field "constraint" (.maybe AttrConstraint.schema) (.nullable none) .none)
    (fun a => (a.name, a.defaults, a.constraint, ()))
    (fun (name, defaults, constraint, _) => ⟨name, defaults, constraint⟩)
    (fun _ => rfl)

/-! ## Digests -/

/-- A hash is the row of its bytes. -/
def NameListHash.schema : Schema NameListHash := .view (.octets 32) bytes mk (fun _ => rfl)

/-- Every attribute, or the hash of the names. -/
def AttrsDigest.schema : Schema AttrsDigest :=
  .view (.choice (.plain "All" (.carrying "Listed" NameListHash.schema .none)))
    (fun
      | .every => .inl ()
      | .listed hash => .inr (.inl hash))
    (fun
      | .inl _ => .every
      | .inr (.inl hash) => .listed hash)
    (fun d => by cases d <;> rfl)

/-- The three parts of a digest. -/
def RightsDigest.schema : Schema RightsDigest :=
  .view
    (.record <|
      .field "preset" NameListHash.schema .required <|
      .field "set_attrs" AttrsDigest.schema .required <|
      .field "get_attrs" AttrsDigest.schema .required .none)
    (fun d => (d.preset, d.setAttrs, d.getAttrs, ()))
    (fun (preset, setAttrs, getAttrs, _) => ⟨preset, setAttrs, getAttrs⟩)
    (fun _ => rfl)

end Delegation
