/-
# Serial forms survive being written

Grants, rights, attributes and digests are kept in serial forms, and each of them is read back from
its serial form with everything that belongs to it.  What a serial form spells is said here once
more, as a tree and without a schema: a record is the row of all its fields under their names, what
may be missing is null where it is, a case that carries nothing is its name and any other case is
its name over what it carries, and a hash is the row of its bytes as numbers.

## Key constructions

* `Json.Reading.word`, `Json.Reading.row`, `Json.Reading.fields`, `Json.Reading.under` — the shapes
  from which these trees are put together.
* `SerialKind` — the kinds of values that have a serial form, each with its layout.
* `SerialKind.tree` — the tree of a value.

## Key results

* `SerialKind.toReading_schema` — the layouts spell these trees.
* `SerialKind.serial_forms_are_lossless` — a value is read back from its serial form.
-/
import Delegation.Document.Serial
import Delegation.Proofs.Json.RoundTrip

namespace Delegation

open Json

/-! ## Shapes of trees -/

namespace Json.Reading

/-- A text. -/
def word (s : String) : Reading := .text (some s)

/-- The trees of some values in a row. -/
def row {α : Type} (tree : α → Reading) (as : List α) : Reading := .array (.ofList (as.map tree))

/-- Trees under names, in order. -/
def fields (members : List (String × Reading)) : Reading := .object (.ofList members)

/-- A tree under the name of its case. -/
def under (name : String) (carried : Reading) : Reading := fields [(name, carried)]

/-- The tree of a value that may be missing. -/
def orNull {α : Type} (tree : α → Reading) : Option α → Reading
  | none => .null
  | some a => tree a

end Json.Reading

open Json.Reading

/-! ## The trees of values -/

/-- Names in ascending order. -/
def NameSet.tree (s : NameSet) : Reading := row word s.toList

/-- Every attribute with its expansion, or the listed ones. -/
def AttrScope.tree : AttrScope → Reading
  | every expanded => under "All" (fields [("expanded", expanded.tree)])
  | listed attrs => under "Listed" attrs.tree

/-- The kind by its name; a bundle keeps the order of its rights. -/
def RightKind.tree : RightKind → Reading
  | preset => word "Preset"
  | getAttrs scope => under "GetAttrs" scope.tree
  | setAttrs scope => under "SetAttrs" scope.tree
  | combo rights => under "Combo" (row word rights)

/-- All fields of a definition. -/
def Right.tree (r : Right) : Reading :=
  fields [("name", word r.name), ("description", word r.description), ("kind", r.kind.tree),
    ("target_types", row (fun t => word t.code) r.targetTypes.toList),
    ("user_right", .bool r.isUserRight)]

/-- All fields of a grant; the modifier is spelled by its marker. -/
def Grant.tree (g : Grant) : Reading :=
  fields [("grantee_type", word g.granteeType.code), ("grantee_id", word g.granteeId),
    ("right", word g.right), ("modifier", orNull (fun m => word m.code) g.modifier)]

/-- A grant with the display name, which is no part of the entry's identity. -/
def AclEntry.tree (e : AclEntry) : Reading :=
  fields [("grant", e.grant.tree), ("grantee_name", word e.granteeName)]

/-- The limits of a constraint, each of which may be missing, and its values. -/
def AttrConstraint.tree (c : AttrConstraint) : Reading :=
  fields [("min", orNull word c.min), ("max", orNull word c.max), ("values", c.values.tree)]

/-- All fields of an attribute. -/
def EffectiveAttr.tree (a : EffectiveAttr) : Reading :=
  fields [("name", word a.name), ("default_values", a.defaults.tree),
    ("constraint", orNull AttrConstraint.tree a.constraint)]

/-- The 32 bytes as numbers. -/
def NameListHash.tree (h : NameListHash) : Reading :=
  row (fun b => .number (.natural b.toNat)) h.bytes.toList

/-- Every attribute, or the hash of the names. -/
def AttrsDigest.tree : AttrsDigest → Reading
  | every => word "All"
  | listed hash => under "Listed" hash.tree

/-- The three parts of a digest. -/
def RightsDigest.tree (d : RightsDigest) : Reading :=
  fields [("preset", d.preset.tree), ("set_attrs", d.setAttrs.tree),
    ("get_attrs", d.getAttrs.tree)]

/-! ## What the layouts spell -/

theorem NameSet.toReading_schema (s : NameSet) : NameSet.schema.toReading s = s.tree := rfl

theorem AttrScope.toReading_schema (s : AttrScope) : AttrScope.schema.toReading s = s.tree := by
  cases s <;> rfl

theorem RightKind.toReading_schema (k : RightKind) : RightKind.schema.toReading k = k.tree := by
  cases k with
  | preset => rfl
  | getAttrs scope => exact congrArg (under "GetAttrs") scope.toReading_schema
  | setAttrs scope => exact congrArg (under "SetAttrs") scope.toReading_schema
  | combo rights => rfl

theorem Right.toReading_schema (r : Right) : Right.schema.toReading r = r.tree := by
  unfold tree
  rw [← RightKind.toReading_schema]
  rfl

/-- What may be missing is null where it is. -/
theorem Schema.toReading_maybe {α : Type} (content : Schema α) (a : Option α) :
    (Schema.maybe content).toReading a = orNull content.toReading a := by
  cases a <;> rfl

theorem Grant.toReading_schema (g : Grant) : Grant.schema.toReading g = g.tree := by
  have hmodifier : orNull (fun m => word m.code) g.modifier =
      (Schema.maybe Modifier.schema).toReading g.modifier := by
    rw [Schema.toReading_maybe]
    rfl
  unfold tree
  rw [hmodifier]
  rfl

theorem AclEntry.toReading_schema (e : AclEntry) : AclEntry.schema.toReading e = e.tree := by
  unfold tree
  rw [← Grant.toReading_schema]
  rfl

theorem AttrConstraint.toReading_schema (c : AttrConstraint) :
    AttrConstraint.schema.toReading c = c.tree := by
  have hlimit (limit : Option String) :
      orNull word limit = (Schema.maybe .text).toReading limit := by
    rw [Schema.toReading_maybe]
    rfl
  unfold tree
  rw [hlimit, hlimit]
  rfl

theorem EffectiveAttr.toReading_schema (a : EffectiveAttr) :
    EffectiveAttr.schema.toReading a = a.tree := by
  have hconstraint : orNull AttrConstraint.tree a.constraint =
      (Schema.maybe AttrConstraint.schema).toReading a.constraint := by
    rw [Schema.toReading_maybe, funext AttrConstraint.toReading_schema]
  unfold tree
  rw [hconstraint]
  rfl

theorem NameListHash.toReading_schema (h : NameListHash) :
    NameListHash.schema.toReading h = h.tree := rfl

theorem AttrsDigest.toReading_schema (d : AttrsDigest) :
    AttrsDigest.schema.toReading d = d.tree := by
  cases d <;> rfl

theorem RightsDigest.toReading_schema (d : RightsDigest) :
    RightsDigest.schema.toReading d = d.tree := by
  unfold tree
  rw [← AttrsDigest.toReading_schema, ← AttrsDigest.toReading_schema]
  rfl

/-! ## Kinds of values -/

/-- The kinds of values that have a serial form. -/
inductive SerialKind
  | attrScope
  | rightKind
  | right
  | grant
  | aclEntry
  | attrConstraint
  | effectiveAttr
  | nameListHash
  | attrsDigest
  | rightsDigest
deriving DecidableEq, Repr

namespace SerialKind

/-- The values of a kind. -/
abbrev Value : SerialKind → Type
  | attrScope => AttrScope
  | rightKind => RightKind
  | right => Right
  | grant => Grant
  | aclEntry => AclEntry
  | attrConstraint => AttrConstraint
  | effectiveAttr => EffectiveAttr
  | nameListHash => NameListHash
  | attrsDigest => AttrsDigest
  | rightsDigest => RightsDigest

/-- How the values of a kind are laid out. -/
def schema : (kind : SerialKind) → Schema kind.Value
  | attrScope => AttrScope.schema
  | rightKind => RightKind.schema
  | right => Right.schema
  | grant => Grant.schema
  | aclEntry => AclEntry.schema
  | attrConstraint => AttrConstraint.schema
  | effectiveAttr => EffectiveAttr.schema
  | nameListHash => NameListHash.schema
  | attrsDigest => AttrsDigest.schema
  | rightsDigest => RightsDigest.schema

/-- The tree of a value. -/
def tree : (kind : SerialKind) → kind.Value → Reading
  | attrScope => AttrScope.tree
  | rightKind => RightKind.tree
  | right => Right.tree
  | grant => Grant.tree
  | aclEntry => AclEntry.tree
  | attrConstraint => AttrConstraint.tree
  | effectiveAttr => EffectiveAttr.tree
  | nameListHash => NameListHash.tree
  | attrsDigest => AttrsDigest.tree
  | rightsDigest => RightsDigest.tree

theorem wellFormed_schema (kind : SerialKind) : kind.schema.WellFormed := by
  cases kind <;> decide

/-- The layout of a kind spells the trees of its values. -/
theorem toReading_schema (kind : SerialKind) (v : kind.Value) :
    kind.schema.toReading v = kind.tree v := by
  cases kind with
  | attrScope => exact AttrScope.toReading_schema v
  | rightKind => exact RightKind.toReading_schema v
  | right => exact Right.toReading_schema v
  | grant => exact Grant.toReading_schema v
  | aclEntry => exact AclEntry.toReading_schema v
  | attrConstraint => exact AttrConstraint.toReading_schema v
  | effectiveAttr => exact EffectiveAttr.toReading_schema v
  | nameListHash => exact NameListHash.toReading_schema v
  | attrsDigest => exact AttrsDigest.toReading_schema v
  | rightsDigest => exact RightsDigest.toReading_schema v

/-- **Serial forms are lossless.**  What is written for a value of any kind spells the tree of the
value and nothing behind it, and the value with all its parts is read back from it, display names
included.  So values that are written alike are equal. -/
theorem serial_forms_are_lossless (kind : SerialKind) (v : kind.Value) :
    Json.read (kind.schema.toJson v).toList = (kind.tree v, []) ∧
      kind.schema.ofJson (kind.schema.toJson v) = .ok v ∧
      ∀ v', kind.schema.toJson v = kind.schema.toJson v' → v = v' := by
  have hback := Schema.ofJson_toJson_bare kind.wellFormed_schema
  refine ⟨?_, hback v, fun v' hsame => ?_⟩
  · have hread := (kind.schema.spells_writeJson v).reads.read blank_nil blank_nil
    rw [toReading_schema, List.nil_append, List.append_nil] at hread
    rw [Schema.toJson, String.toList_ofList]
    exact hread
  · have h := hback v'
    rw [← hsame, hback v] at h
    exact Except.ok.inj h

end SerialKind

end Delegation
