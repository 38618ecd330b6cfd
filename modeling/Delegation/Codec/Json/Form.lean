/-
# Values in JSON

Writing and reading JSON along a schema.  A record is an object with its fields in order, or a
row of them; a code is a text; a case that carries a value is an object with one member.

## Key constructions

* `Schema.writeJson` — the text of a value, without blanks.
* `Schema.ofReading` — the value of a reading.
* `Schema.toJson`, `Schema.ofJson` — between values and whole texts.
-/
import Delegation.Codec.Schema
import Delegation.Codec.Json.Reading

namespace Delegation

open Json

/-! ## Writing -/

namespace Json

/-- Texts separated by commas. -/
def commas (parts : List (List Char)) : List Char := [','].intercalate parts

/-- The text of a member. -/
def memberText (name : String) (value : List Char) : List Char := quote name ++ ':' :: value

/-- The text of an object with the given members. -/
def objectText (members : List (List Char)) : List Char := '{' :: commas members ++ ['}']

/-- The text of an array with the given items. -/
def arrayText (items : List (List Char)) : List Char := '[' :: commas items ++ [']']

end Json

mutual

/-- The text of a value. -/
def Schema.writeJson : {α : Type} → Schema α → α → List Char
  | _, .text, s => quote s
  | _, .flag, b => if b then ['t', 'r', 'u', 'e'] else ['f', 'a', 'l', 's', 'e']
  | _, .octets _, bytes => arrayText (bytes.toList.map fun b => Nat.toDigits 10 b.toNat)
  | _, .code _ spell _, a => quote (spell a)
  | _, .maybe _, none => ['n', 'u', 'l', 'l']
  | _, .maybe content, some a => content.writeJson a
  | _, .list item, as => arrayText (as.map item.writeJson)
  | _, .record fields, a => objectText (fields.writeJson a)
  | _, .choice cases, a => cases.writeJson a
  | _, .view shown toView _ _, b => shown.writeJson (toView b)

/-- The texts of the fields that are not left out. -/
def Fields.writeJson : {α : Type} → Fields α → α → List (List Char)
  | _, .none, _ => []
  | _, .field name content presence rest, (a, b) =>
    if presence.omits a then rest.writeJson b
    else memberText name (content.writeJson a) :: rest.writeJson b

/-- The text of a case. -/
def Cases.writeJson : {α : Type} → Cases α → α → List Char
  | _, .plain name _, .inl _ => quote name
  | _, .carrying name content _, .inl a => objectText [memberText name (content.writeJson a)]
  | _, .plain _ rest, .inr b | _, .carrying _ _ rest, .inr b => rest.writeJson b

end

/-! ## Reading -/

namespace Json

/-- The fault of a value that is not of the type expected.  A text or number that cannot be taken
at all is malformed, whatever was expected. -/
def Reading.mismatch : Reading → Fault
  | .broken | .text none | .number .huge => .malformed
  | _ => .invalidType

/-- Passes over a value that nobody wants.  It has to be well formed. -/
def Reading.skip (r : Reading) : Except Fault Unit :=
  if r.intact then .ok () else .error .malformed

/-- The byte that a reading denotes. -/
def Reading.toByte : Reading → Except Fault UInt8
  | .number (.natural n) => if n < 256 then .ok (UInt8.ofNat n) else .error .invalidValue
  | .number .negative => .error .invalidValue
  | r => .error r.mismatch

/-- The values of all items. -/
def Items.values {α : Type} (value : Reading → Except Fault α) : Items → Except Fault (List α)
  | .closed => .ok []
  | .broken => .error .malformed
  | .item r rest => do
    let a ← value r
    let as ← rest.values value
    return a :: as

/-- The values of exactly `n` items. -/
def Items.row {α : Type} (value : Reading → Except Fault α) :
    (n : Nat) → Items → Except Fault { as : List α // as.length = n }
  | 0, .closed => .ok ⟨[], rfl⟩
  | 0, _ => .error .malformed
  | _ + 1, .closed => .error .invalidLength
  | _ + 1, .broken => .error .malformed
  | n + 1, .item r rest => do
    let a ← value r
    let ⟨as, h⟩ ← rest.row value n
    return ⟨a :: as, by simp [h]⟩

/-- Walks over members in order.  Every name must be a text. -/
def Members.walk {σ : Type} (step : σ → String → Reading → Except Fault σ) :
    Members → σ → Except Fault σ
  | .closed, s => .ok s
  | .broken, _ | .member none _ _, _ => .error .malformed
  | .member (some name) value rest, s => do
    let s ← step s name value
    rest.walk step s

/-- The case that a reading selects: a text names a case, and an object with one member names a
case and carries a value for it. -/
def Reading.select {α : Type} (named : String → Except Fault α)
    (carried : String → Reading → Except Fault α) : Reading → Except Fault α
  | .text (some name) => named name
  | .object (.member (some name) value rest) => do
    let a ← carried name value
    match rest with
    | .closed => return a
    | _ => throw .malformed
  | _ => .error .malformed

/-- The value under a case that carries none. -/
def Reading.toUnit : Reading → Except Fault Unit
  | .null => .ok ()
  | r => .error r.mismatch

end Json

/-- The value that a code spells. -/
def decodeCode {α : Type} (all : List α) (spell : α → String) (name : String) : Except Fault α :=
  match all.find? fun a => spell a = name with
  | some a => .ok a
  | none => .error .unknownVariant

mutual

/-- The value of a reading. -/
def Schema.ofReading : {α : Type} → Schema α → Reading → Except Fault α
  | _, .text, r =>
    match r with
    | .text (some s) => .ok s
    | r => .error r.mismatch
  | _, .flag, r =>
    match r with
    | .bool b => .ok b
    | r => .error r.mismatch
  | _, .octets n, r =>
    match r with
    | .array items => do
      let ⟨bytes, h⟩ ← items.row Reading.toByte n
      return ⟨bytes.toArray, by simpa using h⟩
    | r => .error r.mismatch
  | _, .code all spell _, r =>
    r.select (decodeCode all spell) fun name value => do
      let a ← decodeCode all spell name
      value.toUnit
      return a
  | _, .maybe content, r =>
    match r with
    | .null => .ok none
    | r => some <$> content.ofReading r
  | _, .list item, r =>
    match r with
    | .array items => items.values item.ofReading
    | r => .error r.mismatch
  | _, .record fields, r =>
    match r with
    | .object members => do
      let slots ← members.walk fields.fill fields.vacant
      fields.finish slots
    | .array items => fields.ofItems items
    | r => .error r.mismatch
  | _, .choice cases, r => r.select cases.ofName cases.ofMember
  | _, .view shown _ ofView _, r => ofView <$> shown.ofReading r

/-- Takes in a member of a record.  A known field may come once; others are passed over. -/
def Fields.fill : {α : Type} → (fields : Fields α) → fields.Slots → String → Reading →
    Except Fault fields.Slots
  | _, .none, slots, _, r => do
    r.skip
    return slots
  | _, .field (α := α) name content _ rest, slots, key, r =>
    let (slot, slots) : Option α × rest.Slots := slots
    if key = name then
      match slot with
      | some _ => .error (.duplicateField name)
      | none => (fun a => (some a, slots)) <$> content.ofReading r
    else (fun slots => (slot, slots)) <$> rest.fill slots key r

/-- The record whose fields stand in a row. -/
def Fields.ofItems : {α : Type} → Fields α → Items → Except Fault α
  | _, .none, items =>
    match items with
    | .closed => .ok ()
    | _ => .error .malformed
  | _, .field _ content presence rest, items =>
    match items with
    | .closed =>
      match presence.byPlace? with
      | some a => (a, ·) <$> rest.ofItems .closed
      | none => .error .invalidLength
    | .broken => .error .malformed
    | .item r items => do
      let a ← content.ofReading r
      let b ← rest.ofItems items
      return (a, b)

/-- The case that a name alone selects. -/
def Cases.ofName : {α : Type} → Cases α → String → Except Fault α
  | _, .none, _ => .error .unknownVariant
  | _, .plain name rest, key => if key = name then .ok (.inl ()) else .inr <$> rest.ofName key
  | _, .carrying name _ rest, key =>
    if key = name then .error .invalidType else .inr <$> rest.ofName key

/-- The case that a member selects. -/
def Cases.ofMember : {α : Type} → Cases α → String → Reading → Except Fault α
  | _, .none, _, _ => .error .unknownVariant
  | _, .plain name rest, key, r =>
    if key = name then .inl <$> r.toUnit else .inr <$> rest.ofMember key r
  | _, .carrying name content rest, key, r =>
    if key = name then .inl <$> content.ofReading r else .inr <$> rest.ofMember key r

end

/-! ## Whole texts -/

namespace Schema

/-- The JSON text of a value. -/
def toJson {α : Type} (schema : Schema α) (a : α) : String := String.ofList (schema.writeJson a)

/-- The value of a JSON text.  Only blanks may follow it. -/
def ofJson {α : Type} (schema : Schema α) (text : String) : Except Fault α := do
  let (r, rest) := Json.read text.toList
  let a ← schema.ofReading r
  if rest.all isBlank then return a else throw .malformed

end Schema

end Delegation
