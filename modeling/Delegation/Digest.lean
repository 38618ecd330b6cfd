/-
# Digests of rights

Snapshots that give the same rights are found by comparing digests.  A digest covers the names
of the preset rights and of the attributes on either side, and nothing else.

## Key constructions

* `nameListBytes` — a list of names as bytes, each name behind its length.
* `NameListHash` — the hash of these bytes.
* `AttrsDigest` — every attribute, or the hash of the listed names.
* `RightsDigest` — the three parts together.

## Key results

* `nameListBytes_cons` — how one more name extends the bytes.
-/
import Delegation.Hash.Blake3

namespace Delegation

/-! ## Lists of names -/

/-- The bytes of a list of names: each name in UTF-8 behind its length in eight bytes, so that
names cannot run into each other. -/
def nameListBytes (names : List String) : List UInt8 :=
  names.flatMap fun name =>
    let bytes := Utf8.encode name
    Bytes.littleEndian 8 bytes.length ++ bytes

@[simp] theorem nameListBytes_nil : nameListBytes [] = [] := rfl

theorem nameListBytes_cons (name : String) (names : List String) :
    nameListBytes (name :: names) =
      Bytes.littleEndian 8 (Utf8.encode name).length ++ Utf8.encode name ++
        nameListBytes names := by
  simp [nameListBytes]

/-- The hash of a list of names. -/
structure NameListHash where
  bytes : Vector UInt8 32
deriving DecidableEq

namespace NameListHash

/-- Hashes names in the order given. -/
def ofNames (names : List String) : NameListHash := ⟨Blake3.hash (nameListBytes names)⟩

/-- All 64 digits of the hash. -/
def hex (h : NameListHash) : String := Bytes.hex h.bytes.toList

/-- The first 16 digits of the hash. -/
def shortHex (h : NameListHash) : String := Bytes.hex (h.bytes.toList.take 8)

/-- The hash as diagnostics show it. -/
def describe (h : NameListHash) : String := "NameListHash(" ++ h.shortHex ++ ")"

end NameListHash

/-! ## Digests -/

/-- The attributes on one side: every attribute, or the hash of their names. -/
inductive AttrsDigest
  | every
  | listed (hash : NameListHash)
deriving DecidableEq

namespace AttrsDigest

/-- The digest of one side.  A side that covers every attribute ignores the names. -/
def ofNames (every : Bool) (names : List String) : AttrsDigest :=
  if every then .every else .listed (.ofNames names)

/-- The digest in words. -/
def text : AttrsDigest → String
  | every => "all"
  | listed hash => hash.shortHex

/-- The hash of the names, unless every attribute is covered. -/
def hash? : AttrsDigest → Option NameListHash
  | every => none
  | listed hash => some hash

end AttrsDigest

/-- What two snapshots have in common when they give the same rights. -/
structure RightsDigest where
  preset : NameListHash
  setAttrs : AttrsDigest
  getAttrs : AttrsDigest
deriving DecidableEq

namespace RightsDigest

/-- The digest over names in the order given. -/
def ofNames (preset : List String) (setEvery : Bool) (setAttrs : List String)
    (getEvery : Bool) (getAttrs : List String) : RightsDigest :=
  ⟨.ofNames preset, .ofNames setEvery setAttrs, .ofNames getEvery getAttrs⟩

/-- The digest on one line. -/
def text (d : RightsDigest) : String :=
  "preset:" ++ d.preset.shortHex ++ ";setAttrs:" ++ d.setAttrs.text ++
    ";getAttrs:" ++ d.getAttrs.text ++ ";"

end RightsDigest

end Delegation
