/-
# Documents of effective rights

## Key constructions

* `AttrDocument`, `AttrsDocument` — attributes with defaults and constraints.
* `RightsDocument` — the rights of a grantee on a target.
* `RightsDocument.ofSnapshot`, `RightsDocument.toSnapshot` — between snapshots and documents.
* `CreationDocument` — the attributes that may be set in creating an entry.
-/
import Delegation.Document.Code
import Delegation.Snapshot

namespace Delegation

/-! ## Attributes -/

/-- A constraint in a document. -/
structure ConstraintDocument where
  min : Option String
  max : Option String
  values : List String
deriving DecidableEq

namespace ConstraintDocument

/-- Absent limits and an empty list of values are left out. -/
def schema : Schema ConstraintDocument :=
  .view
    (.record <|
      .field "min" (.maybe .text) .ifSome <|
      .field "max" (.maybe .text) .ifSome <|
      .field "values" (.list .text) .ifNonempty .none)
    (fun d => (d.min, d.max, d.values, ()))
    (fun (min, max, values, _) => ⟨min, max, values⟩)
    (fun _ => rfl)

/-- The document of a constraint. -/
def ofConstraint (c : AttrConstraint) : ConstraintDocument := ⟨c.min, c.max, c.values.toList⟩

/-- The constraint of a document. -/
def toConstraint (d : ConstraintDocument) : AttrConstraint := ⟨d.min, d.max, .ofList d.values⟩

end ConstraintDocument

/-- An attribute in a document. -/
structure AttrDocument where
  name : String
  constraint : Option ConstraintDocument
  defaults : List String
deriving DecidableEq

namespace AttrDocument

/-- An absent constraint and an empty list of defaults are left out. -/
def schema : Schema AttrDocument :=
  .view
    (.record <|
      .field "n" .text .required <|
      .field "constraint" (.maybe ConstraintDocument.schema) .ifSome <|
      .field "default" (.list .text) .ifNonempty .none)
    (fun d => (d.name, d.constraint, d.defaults, ()))
    (fun (name, constraint, defaults, _) => ⟨name, constraint, defaults⟩)
    (fun _ => rfl)

/-- An attribute of which only the name is known. -/
def bare (name : String) : AttrDocument := ⟨name, none, []⟩

/-- The document of an attribute. -/
def ofAttr (a : EffectiveAttr) : AttrDocument :=
  ⟨a.name, a.constraint.map .ofConstraint, a.defaults.toList⟩

/-- The attribute of a document. -/
def toAttr (d : AttrDocument) : EffectiveAttr :=
  ⟨d.name, .ofList d.defaults, d.constraint.map ConstraintDocument.toConstraint⟩

end AttrDocument

/-- The attributes of one side in a document. -/
structure AttrsDocument where
  all : Bool
  listed : List AttrDocument
deriving DecidableEq

namespace AttrsDocument

/-- Both parts may be missing, and are always written. -/
def schema : Schema AttrsDocument :=
  .view
    (.record <|
      .field "all" .flag (.lenient false) <|
      .field "a" (.list AttrDocument.schema) (.lenient []) .none)
    (fun d => (d.all, d.listed, ()))
    (fun (all, listed, _) => ⟨all, listed⟩)
    (fun _ => rfl)

/-- No attribute at all. -/
def none : AttrsDocument := ⟨false, []⟩

/-- The document of the attributes of one side. -/
def ofAttrs (a : AttrRights) : AttrsDocument := ⟨a.every, a.listed.toList.map .ofAttr⟩

/-- The steps by which the attributes fill a side, given the two kinds of steps of that side. -/
def steps (d : AttrsDocument) (every : SnapshotStep) (list : EffectiveAttr → SnapshotStep) :
    List SnapshotStep :=
  (if d.all then [every] else []) ++ d.listed.map fun a => list a.toAttr

end AttrsDocument

/-! ## Snapshots -/

/-- A grantee in a document. -/
structure GranteeDocument where
  id : String
  name : String
deriving DecidableEq

/-- Both parts are required. -/
def GranteeDocument.schema : Schema GranteeDocument :=
  .view (.record (.field "id" .text .required (.field "name" .text .required .none)))
    (fun d => (d.id, d.name, ())) (fun (id, name, _) => ⟨id, name⟩) (fun _ => rfl)

/-- A target in a document, with the rights on it. -/
structure TargetDocument where
  type : TargetType
  id : String
  name : String
  presets : List String
  setAttrs : AttrsDocument
  getAttrs : AttrsDocument
deriving DecidableEq

/-- The rights may be missing, and are always written. -/
def TargetDocument.schema : Schema TargetDocument :=
  .view
    (.record <|
      .field "type" TargetType.schema .required <|
      .field "id" .text .required <|
      .field "name" .text .required <|
      .field "right" (.list .text) (.lenient []) <|
      .field "setAttrs" AttrsDocument.schema (.lenient .none) <|
      .field "getAttrs" AttrsDocument.schema (.lenient .none) .none)
    (fun d => (d.type, d.id, d.name, d.presets, d.setAttrs, d.getAttrs, ()))
    (fun (type, id, name, presets, setAttrs, getAttrs, _) =>
      ⟨type, id, name, presets, setAttrs, getAttrs⟩)
    (fun _ => rfl)

/-- The rights of a grantee on a target as a document. -/
structure RightsDocument where
  grantee : GranteeDocument
  target : TargetDocument
deriving DecidableEq

namespace RightsDocument

/-- Both parts are required. -/
def schema : Schema RightsDocument :=
  .view
    (.record <|
      .field "grantee" GranteeDocument.schema .required <|
      .field "target" TargetDocument.schema .required .none)
    (fun d => (d.grantee, d.target, ()))
    (fun (grantee, target, _) => ⟨grantee, target⟩)
    (fun _ => rfl)

/-- The document of a snapshot. -/
def ofSnapshot (s : Snapshot) : RightsDocument :=
  ⟨⟨s.granteeId, s.granteeName⟩,
    ⟨s.targetType, s.targetId, s.targetName, s.presets.toList, .ofAttrs s.setAttrs,
      .ofAttrs s.getAttrs⟩⟩

/-- The steps by which the rights of the document fill a snapshot. -/
def steps (d : RightsDocument) : List SnapshotStep :=
  d.target.presets.map .preset ++ d.target.setAttrs.steps .setEvery .set ++
    d.target.getAttrs.steps .getEvery .get

/-- The snapshot of a document. -/
def toSnapshot (d : RightsDocument) : Snapshot :=
  (Snapshot.start d.target.type (some d.target.id) d.target.name d.grantee.id d.grantee.name).build
    d.steps

end RightsDocument

/-- The attributes that may be set in creating an entry. -/
structure CreationDocument where
  setAttrs : AttrsDocument
deriving DecidableEq

namespace CreationDocument

/-- The attributes are required. -/
def schema : Schema CreationDocument :=
  .view (.record (.field "setAttrs" AttrsDocument.schema .required .none))
    (fun d => (d.setAttrs, ())) (fun (setAttrs, _) => ⟨setAttrs⟩) (fun _ => rfl)

/-- The attributes that a snapshot lets its grantee set. -/
def ofSnapshot (s : Snapshot) : CreationDocument := ⟨.ofAttrs s.setAttrs⟩

end CreationDocument

end Delegation
