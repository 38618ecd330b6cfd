/-
# Rights

A right is a named capability.  A preset right is atomic, an attribute right lets its holder
read or write attributes, and a combo right bundles other rights.  Each right lists the target
types on which it may be granted.

## Key constructions

* `AttrScope` — every attribute, or the listed ones.
* `RightKind` — preset, attribute right or combo.
* `Right` — a definition as a catalog holds it.
* `Right.define` — the checked way to make one.
* `MalformedRight` — why a definition was refused.
-/
import Delegation.Target

namespace Delegation

/-- Which attributes an attribute right covers. -/
inductive AttrScope
  /-- Every attribute; `expanded` lists them for callers that ask for the list. -/
  | every (expanded : NameSet)
  /-- The listed attributes. -/
  | listed (attrs : NameSet)
deriving DecidableEq, Inhabited

namespace AttrScope

/-- Whether the scope covers every attribute. -/
def isEvery : AttrScope → Bool
  | every _ => true
  | listed _ => false

/-- The attributes that the scope names. -/
def attrs : AttrScope → NameSet
  | every expanded => expanded
  | listed attrs => attrs

end AttrScope

/-- The shape of a right. -/
inductive RightKind
  | preset
  | getAttrs (scope : AttrScope)
  | setAttrs (scope : AttrScope)
  /-- A bundle of other rights, in the order of its definition. -/
  | combo (rights : List String)
deriving DecidableEq, Inhabited

namespace RightKind

/-- The code that spells the kind in documents. -/
def code : RightKind → String
  | preset => "preset"
  | getAttrs _ => "getAttrs"
  | setAttrs _ => "setAttrs"
  | combo _ => "combo"

/-- The scope of an attribute right. -/
def scope? : RightKind → Option AttrScope
  | getAttrs scope | setAttrs scope => some scope
  | _ => none

/-- The constituents of a combo right. -/
def rights? : RightKind → Option (List String)
  | combo rights => some rights
  | _ => none

end RightKind

/-- A set of target types. -/
abbrev TargetTypeSet : Type := Keyed (id : TargetType → TargetType)

/-- The definition of a right. -/
structure Right where
  name : String
  description : String
  kind : RightKind
  /-- The target types on which the right may be granted. -/
  targetTypes : TargetTypeSet
  /-- Whether it is a right that users hold over their own entries, not an admin right. -/
  isUserRight : Bool
deriving DecidableEq

/-- What is wrong with the definition of a right. -/
inductive RightFlaw
  | emptyName
  | noTargetType
  | noConstituent
deriving DecidableEq, Repr

/-- A definition that was refused, with the name of the right and the flaw. -/
structure MalformedRight where
  name : String
  flaw : RightFlaw
deriving DecidableEq, Repr

/-- The flaw in words. -/
def RightFlaw.text : RightFlaw → String
  | emptyName => "empty name"
  | noTargetType => "no grantable target type"
  | noConstituent => "combo right without constituents"

/-- The text that reports a refused definition. -/
def MalformedRight.message (e : MalformedRight) : String :=
  "malformed right " ++ e.name ++ ": " ++ e.flaw.text

namespace Right

/-- The right that lets the admins of one domain administer another. -/
def crossDomainAdmin : String := "crossDomainAdmin"

/-- Defines an admin right.  It needs a name and a target type, and a combo right needs a
constituent; of several flaws the first in this order is reported. -/
def define (name description : String) (kind : RightKind) (targetTypes : List TargetType) :
    Except MalformedRight Right :=
  if name = "" then .error ⟨name, .emptyName⟩
  else if targetTypes = [] then .error ⟨name, .noTargetType⟩
  else if kind = .combo [] then .error ⟨name, .noConstituent⟩
  else .ok ⟨name, description, kind, Keyed.ofList id targetTypes, false⟩

/-- The same right as a user right. -/
def asUserRight (r : Right) : Right := { r with isUserRight := true }

/-- Whether the right is atomic. -/
def isPreset (r : Right) : Bool := r.kind = .preset

/-- Whether the right covers attributes. -/
def isAttrRight (r : Right) : Bool := r.kind.scope?.isSome

/-- Whether the right lets its holder write attributes. -/
def isSetAttrs (r : Right) : Bool :=
  match r.kind with
  | .setAttrs _ => true
  | _ => false

/-- Whether the right bundles other rights. -/
def isCombo (r : Right) : Bool := r.kind.rights?.isSome

/-- Whether the right is the one for administering another domain. -/
def isCrossDomainAdmin (r : Right) : Bool := r.name = crossDomainAdmin

/-- Whether the right may be granted on targets of the type. -/
def grantableOn (r : Right) (t : TargetType) : Bool := r.targetTypes.contains t

/-- The codes of the target types, separated by commas. -/
def targetTypesText (r : Right) : String :=
  ",".intercalate (r.targetTypes.toList.map TargetType.code)

end Right

end Delegation
