/-
# Values in CBOR

Writing and reading CBOR along a schema.  A record is a map from the names of its fields, a code
is a text, and lengths are definite and heads as short as possible in what is written.

## Key constructions

* `Schema.writeCbor` — the bytes of a value.
* `Schema.readCbor` — reads a value.
* `Schema.toCbor`, `Schema.ofCbor` — between values and whole documents.
-/
import Delegation.Codec.Cbor.Item
import Delegation.Codec.Schema

namespace Delegation

open Cbor

/-! ## Writing -/

/-- How many fields of a record are not left out. -/
def Fields.countWritten : {α : Type} → Fields α → α → Nat
  | _, .none, _ => 0
  | _, .field _ _ presence rest, (a, b) =>
    (if presence.omits a then 0 else 1) + rest.countWritten b

mutual

/-- The bytes of a value. -/
def Schema.writeCbor : {α : Type} → Schema α → α → List UInt8
  | _, .text, s => textBytes s
  | _, .flag, b => if b then [0xF5] else [0xF4]
  | _, .octets n, bytes => headBytes 4 n ++ bytes.toList.flatMap fun b => headBytes 0 b.toNat
  | _, .code _ spell _, a => textBytes (spell a)
  | _, .maybe _, none => [0xF6]
  | _, .maybe content, some a => content.writeCbor a
  | _, .list item, as => headBytes 4 as.length ++ as.flatMap item.writeCbor
  | _, .record fields, a => headBytes 5 (fields.countWritten a) ++ fields.writeCbor a
  | _, .choice cases, a => cases.writeCbor a
  | _, .view shown toView _ _, b => shown.writeCbor (toView b)

/-- The bytes of the fields that are not left out. -/
def Fields.writeCbor : {α : Type} → Fields α → α → List UInt8
  | _, .none, _ => []
  | _, .field name content presence rest, (a, b) =>
    if presence.omits a then rest.writeCbor b
    else textBytes name ++ content.writeCbor a ++ rest.writeCbor b

/-- The bytes of a case. -/
def Cases.writeCbor : {α : Type} → Cases α → α → List UInt8
  | _, .plain name _, .inl _ => textBytes name
  | _, .carrying name content _, .inl a => headBytes 5 1 ++ textBytes name ++ content.writeCbor a
  | _, .plain _ rest, .inr b | _, .carrying _ _ rest, .inr b => rest.writeCbor b

end

/-! ## Reading -/

namespace Cbor

/-- Reads the next head that is not a tag. -/
def pullUntagged : (fuel : Nat) → Reader Head
  | 0 => throw .endOfInput
  | fuel + 1 => do
    match ← pull with
    | .tag _ => pullUntagged fuel
    | head => return head

/-- Reads the head of an item that is wanted.  Tags in front of it are passed over. -/
def pullWanted : Reader Head := do pullUntagged ((← get).length + 1)

/-- Reads a name: a text or byte string in one piece that fits into the window. -/
def readName : Reader (List UInt8) := do
  match ← pullWanted with
  | .text (some n) =>
    if n ≤ window then return Utf8.encode (← takeText n) else throw .invalidType
  | .bytes (some n) => if n ≤ window then take n else throw .invalidType
  | _ => throw .invalidType

/-- Reads the name of a case, which stands alone or as the key of a map with one entry.  What
belongs to that key is left to be read. -/
def readCaseName (levels : Nat) : Reader (List UInt8) := do
  let input ← get
  match ← pullWanted with
  | .map (some 1) => nested (fun _ => readName) levels
  | .text _ => do
    set input
    nested (fun _ => readName) levels
  | _ => throw .invalidType

/-- Reads an integer below 256. -/
def readByte : Reader UInt8 := do
  match ← pullWanted with
  | .positive n => if n < 256 then return UInt8.ofNat n else throw .invalidValue
  | .negative _ => throw .invalidValue
  | _ => throw .invalidType

/-- Reads a number of items. -/
def readRow {α : Type} (item : Reader α) : (n : Nat) → Reader { as : List α // as.length = n }
  | 0 => return ⟨[], rfl⟩
  | n + 1 => do
    let a ← item
    let ⟨as, h⟩ ← readRow item n
    return ⟨a :: as, by simp [h]⟩

/-- Reads items up to the length of a head. -/
def readItems {α : Type} (item : Reader α) (length : Option Nat) : Reader (List α) := do
  let as ← rows (fun as => do return (← item) :: as) length []
  return as.reverse

end Cbor

mutual

/-- Reads a value. -/
def Schema.readCbor : {α : Type} → Schema α → (levels : Nat) → Reader α
  | _, .text, _ => do
    match ← pullWanted with
    | .text length => readText length
    | _ => throw .invalidType
  | _, .flag, _ => do
    match ← pullWanted with
    | .simple 20 => return false
    | .simple 21 => return true
    | _ => throw .meaningless
  | _, .octets n, levels => do
    match ← pullWanted with
    | .array (some length) =>
      if length = n then
        let ⟨bytes, h⟩ ← nested (fun _ => readRow readByte n) levels
        return ⟨bytes.toArray, by simpa using h⟩
      else throw .invalidLength
    | _ => throw .invalidType
  | _, .code all spell _, levels => do
    let name ← readCaseName levels
    match all.find? fun a => Utf8.encode (spell a) = name with
    | some a => return a
    | none => throw .unknownVariant
  | _, .maybe content, levels => do
    match ← peek with
    | .simple 22 | .simple 23 => do
      let _ ← pull
      return none
    | _ => return some (← content.readCbor levels)
  | _, .list item, levels => do
    match ← pullWanted with
    | .array length => nested (fun levels => readItems (item.readCbor levels) length) levels
    | .bytes length =>
      if (← readBytes length).isEmpty then return [] else throw .invalidType
    | _ => throw .invalidType
  | _, .record fields, levels => do
    match ← pullWanted with
    | .map length =>
      nested (fun levels => do
        let slots ← rows (fun slots => do fields.fillCbor levels slots (← readName))
          length fields.vacant
        fields.finish slots) levels
    | _ => throw .invalidType
  | _, .choice cases, levels => do cases.readCbor (levels - 1) (← readCaseName levels)
  | _, .view shown _ ofView _, levels => do return ofView (← shown.readCbor levels)

/-- Reads the value of an entry into a record.  A known field may come once; other entries are
passed over. -/
def Fields.fillCbor : {α : Type} → (fields : Fields α) → (levels : Nat) → fields.Slots →
    (key : List UInt8) → Reader fields.Slots
  | _, .none, levels, slots, _ => do
    skip levels
    return slots
  | _, .field (α := α) name content _ rest, levels, slots, key =>
    let (slot, slots) : Option α × rest.Slots := slots
    if key = Utf8.encode name then
      match slot with
      | some _ => throw (.duplicateField name)
      | none => (fun a => (some a, slots)) <$> content.readCbor levels
    else (fun slots => (slot, slots)) <$> rest.fillCbor levels slots key

/-- Reads what a case carries. -/
def Cases.readCbor : {α : Type} → Cases α → (levels : Nat) → (name : List UInt8) → Reader α
  | _, .none, _, _ => throw .unknownVariant
  | _, .plain name rest, levels, key =>
    if key = Utf8.encode name then return .inl () else .inr <$> rest.readCbor levels key
  | _, .carrying name content rest, levels, key =>
    if key = Utf8.encode name then .inl <$> content.readCbor levels
    else .inr <$> rest.readCbor levels key

end

/-! ## Whole documents -/

namespace Schema

/-- The CBOR document of a value. -/
def toCbor {α : Type} (schema : Schema α) (a : α) : List UInt8 := schema.writeCbor a

/-- The value of a CBOR document.  Bytes that follow it are ignored. -/
def ofCbor {α : Type} (schema : Schema α) (bytes : List UInt8) : Except Fault α :=
  Prod.fst <$> (schema.readCbor maxLevels).run bytes

end Schema

end Delegation
