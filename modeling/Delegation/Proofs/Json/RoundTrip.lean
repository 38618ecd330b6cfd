/-
# JSON undoes itself

A value is written as a text, the text is read as a tree, and the tree has the value.  The tree in
the middle is known from the value: it has a member for each field that is not left out, in the
order of the fields.  So the round trip falls into two halves: what is written spells the tree, and
the tree conveys the value.

## Key constructions

* `Schema.toReading`, `Fields.toMembers`, `Cases.toReading` — the tree of a value.

## Key results

* `Schema.spells_writeJson` — what is written for a value spells the tree of the value.
* `Schema.conveys_toReading` — the tree of a value conveys the value.
* `Schema.ofJson_toJson` — a value is read back from its text, with blanks on either side.
-/
import Delegation.Proofs.Json.Grammar
import Delegation.Proofs.Json.Lenience
import Delegation.Proofs.Record

namespace Delegation

open Json

/-! ## The tree of a value -/

mutual

/-- The reading that the text of a value has. -/
def Schema.toReading : {α : Type} → Schema α → α → Reading
  | _, .text, s => .text (some s)
  | _, .flag, b => .bool b
  | _, .octets _, bytes =>
    .array (.ofList (bytes.toList.map fun b => .number (.natural b.toNat)))
  | _, .code _ spell _, a => .text (some (spell a))
  | _, .maybe _, none => .null
  | _, .maybe content, some a => content.toReading a
  | _, .list item, as => .array (.ofList (as.map item.toReading))
  | _, .record fields, a => .object (.ofList (fields.toMembers a))
  | _, .choice cases, a => cases.toReading a
  | _, .view shown toView _ _, b => shown.toReading (toView b)

/-- The members for the fields that are not left out. -/
def Fields.toMembers : {α : Type} → Fields α → α → List (String × Reading)
  | _, .none, _ => []
  | _, .field name content presence rest, (a, b) =>
    if presence.omits a then rest.toMembers b
    else (name, content.toReading a) :: rest.toMembers b

/-- The reading that the text of a case has. -/
def Cases.toReading : {α : Type} → Cases α → α → Reading
  | _, .plain name _, .inl _ => .text (some name)
  | _, .carrying name content _, .inl a => .object (.ofList [(name, content.toReading a)])
  | _, .plain _ rest, .inr b | _, .carrying _ _ rest, .inr b => rest.toReading b

end

/-! ## From the value to the text -/

mutual

/-- What is written for a value spells the tree of the value. -/
theorem Schema.spells_writeJson : {α : Type} → (schema : Schema α) → (a : α) →
    Spells (schema.writeJson a) (schema.toReading a)
  | _, .text, s => .text (quoted_quote s)
  | _, .flag, b => .bool b
  | _, .octets _, bytes => spells_arrayText_map fun b _ =>
    .number (numeral_toDigits (Nat.lt_trans b.toNat_lt (by decide)))
  | _, .code _ spell _, a => .text (quoted_quote (spell a))
  | _, .maybe _, none => .null
  | _, .maybe content, some a => content.spells_writeJson a
  | _, .list item, as => spells_arrayText_map fun a _ => item.spells_writeJson a
  | _, .record fields, a => spells_objectText (fields.spells_writeJson a)
  | _, .choice cases, a => cases.spells_writeJson a
  | _, .view shown toView _ _, b => shown.spells_writeJson (toView b)

/-- What is written for the fields of a record spells the members. -/
theorem Fields.spells_writeJson : {α : Type} → (fields : Fields α) → (a : α) →
    List.Forall₂ SpellsMember (fields.writeJson a) (fields.toMembers a)
  | _, .none, _ => .nil
  | _, .field name content presence rest, (a, b) => by
    rw [Fields.writeJson, Fields.toMembers]
    split
    · exact rest.spells_writeJson b
    · exact .cons ((content.spells_writeJson a).member name) (rest.spells_writeJson b)

/-- What is written for a case spells the tree of the case. -/
theorem Cases.spells_writeJson : {α : Type} → (cases : Cases α) → (a : α) →
    Spells (cases.writeJson a) (cases.toReading a)
  | _, .plain name _, .inl _ => .text (quoted_quote name)
  | _, .carrying name content _, .inl a =>
    spells_objectText (.cons ((content.spells_writeJson a).member name) .nil)
  | _, .plain _ rest, .inr b | _, .carrying _ _ rest, .inr b => rest.spells_writeJson b

end

/-! ## From the tree to the value -/

mutual

/-- The tree of a value conveys the value. -/
theorem Schema.conveys_toReading : {α : Type} → (schema : Schema α) → (a : α) →
    schema.Conveys a (schema.toReading a)
  | _, .text, _ | _, .flag, _ | _, .octets _, _ | _, .code _ _ _, _ | _, .maybe _, none => rfl
  | _, .maybe content, some a => content.conveys_toReading a
  | _, .list item, as =>
    have hitems := List.forall₂_same.mpr fun a _ => item.conveys_toReading a
    ⟨_, rfl, List.forall₂_map_left_iff.mpr hitems⟩
  | _, .record fields, a =>
    ⟨fields.toMembers a, [], _, rfl, by simp, fields.conveys_toMembers a, by simp⟩
  | _, .choice cases, a => cases.conveys_toReading a
  | _, .view shown toView _ _, b => shown.conveys_toReading (toView b)

/-- The members of a record convey its fields.  What is left out is held as a default. -/
theorem Fields.conveys_toMembers : {α : Type} → (fields : Fields α) → (a : α) →
    fields.Conveys a (fields.toMembers a)
  | _, .none, _ => rfl
  | _, .field name content presence rest, (a, b) => by
    rw [Fields.toMembers]
    split
    next h => exact .inl ⟨Presence.byName?_of_omits h, rest.conveys_toMembers b⟩
    next => exact .inr ⟨_, _, rfl, content.conveys_toReading a, rest.conveys_toMembers b⟩

/-- The tree of a case conveys the case. -/
theorem Cases.conveys_toReading : {α : Type} → (cases : Cases α) → (a : α) →
    cases.Conveys a (cases.toReading a)
  | _, .plain _ _, .inl _ => rfl
  | _, .carrying _ content _, .inl a => ⟨_, rfl, content.conveys_toReading a⟩
  | _, .plain _ rest, .inr b | _, .carrying _ _ rest, .inr b => rest.conveys_toReading b

end

/-! ## Whole texts -/

/-- What is written denotes the tree of the value. -/
theorem Schema.denotes_toJson {α : Type} (schema : Schema α) (a : α) :
    Denotes (schema.toJson a) (schema.toReading a) :=
  ⟨[], _, [], blank_nil, schema.spells_writeJson a, blank_nil, by simp [Schema.toJson]⟩

/-- **JSON undoes itself.**  A value is read back from its text, whatever blanks stand before and
after it. -/
theorem Schema.ofJson_toJson {α : Type} {schema : Schema α} (h : schema.WellFormed) (a : α)
    {before after : String} (hbefore : Blank before.toList) (hafter : Blank after.toList) :
    schema.ofJson (before ++ schema.toJson a ++ after) = .ok a := by
  have hspells := schema.spells_writeJson a
  have htext : (before ++ schema.toJson a ++ after).toList =
      before.toList ++ (schema.writeJson a ++ after.toList) := by
    simp [Schema.toJson]
  rw [schema.ofJson_of_denotes ⟨_, _, _, hbefore, hspells, hafter, htext⟩]
  exact schema.ofReading_of_conveys h (schema.conveys_toReading a) hspells.intact

/-- The text alone is read back as well. -/
theorem Schema.ofJson_toJson_bare {α : Type} {schema : Schema α} (h : schema.WellFormed) (a : α) :
    schema.ofJson (schema.toJson a) = .ok a := by
  have hdenotes := schema.denotes_toJson a
  rw [schema.ofJson_of_denotes hdenotes]
  exact schema.ofReading_of_conveys h (schema.conveys_toReading a) hdenotes.intact

end Delegation
