/-
# Schemas

A schema says how a type of values is laid out in a document: as a text, a flag, a list, a
record and so on.  Each format is written and read along the schema, so a type is described
once and every format agrees on its fields, their order and which of them may be missing.

## Key constructions

* `Schema`, `Fields`, `Cases` — layouts of values, of the fields of a record, and of the cases
  of a choice.
* `Presence` — whether a field may be missing, and whether it is left out.
* `Fields.Slots` — the fields of a record read so far.
* `Schema.WellFormed` — names differ and a missing value is told from a present one.
-/
import Delegation.Codec.Fault

namespace Delegation

/-- Whether a field may be missing. -/
inductive Presence (α : Type)
  /-- The field is always there. -/
  | required
  /-- The field is always written.  Where fields are named a missing one stands for `default`. -/
  | nullable (default : α)
  /-- A missing field stands for `default`, and values that `omits` selects are left out. -/
  | optional (default : α) (omits : α → Bool)
      (omits_default : ∀ a, omits a = true → a = default)

namespace Presence

variable {α : Type}

/-- Whether a value is left out in writing. -/
def omits : Presence α → α → Bool
  | optional _ omits _, a => omits a
  | _, _ => false

/-- What a missing named field stands for. -/
def byName? : Presence α → Option α
  | required => none
  | nullable default | optional default _ _ => some default

/-- What a field missing at the end of a row stands for. -/
def byPlace? : Presence α → Option α
  | optional default _ _ => some default
  | _ => none

/-- A field that is always written and may be missing. -/
def lenient (default : α) : Presence α := optional default (fun _ => false) (by simp)

/-- A field that is left out and may be missing when it is `none`. -/
def ifSome : Presence (Option α) := optional none Option.isNone (by simp)

/-- A field that is left out and may be missing when it is an empty list. -/
def ifNonempty : Presence (List α) := optional [] List.isEmpty (by simp)

end Presence

mutual

/-- How values of a type are laid out. -/
inductive Schema : Type → Type 1
  | text : Schema String
  | flag : Schema Bool
  /-- A row of exactly `n` bytes. -/
  | octets (n : Nat) : Schema (Vector UInt8 n)
  /-- One of finitely many values, each with its own code. -/
  | code {α : Type} (all : List α) (spell : α → String)
      (found : ∀ a, all.find? (fun b => spell b = spell a) = some a) : Schema α
  | maybe {α : Type} (content : Schema α) : Schema (Option α)
  | list {α : Type} (item : Schema α) : Schema (List α)
  | record {α : Type} (fields : Fields α) : Schema α
  | choice {α : Type} (cases : Cases α) : Schema α
  /-- Values of `β`, laid out as the values of `α` that show them. -/
  | view {α β : Type} (shown : Schema α) (toView : β → α) (ofView : α → β)
      (ofView_toView : ∀ b, ofView (toView b) = b) : Schema β

/-- The fields of a record, in order. -/
inductive Fields : Type → Type 1
  | none : Fields Unit
  | field {α β : Type} (name : String) (content : Schema α) (presence : Presence α)
      (rest : Fields β) : Fields (α × β)

/-- The cases of a choice, in order. -/
inductive Cases : Type → Type 1
  | none : Cases Empty
  /-- A case that is only a name. -/
  | plain {β : Type} (name : String) (rest : Cases β) : Cases (Unit ⊕ β)
  /-- A case that carries a value. -/
  | carrying {α β : Type} (name : String) (content : Schema α) (rest : Cases β) : Cases (α ⊕ β)

end

/-! ## Records being read -/

namespace Fields

/-- The values read so far, one place for each field. -/
def Slots : {α : Type} → Fields α → Type
  | _, .none => Unit
  | _, .field (α := α) _ _ _ rest => Option α × rest.Slots

/-- No field was read yet. -/
def vacant : {α : Type} → (fields : Fields α) → fields.Slots
  | _, .none => ()
  | _, .field _ _ _ rest => ((Option.none, rest.vacant) : Option _ × rest.Slots)

/-- The record whose end was reached.  The first field that is missing and has no default is
reported. -/
def finish : {α : Type} → (fields : Fields α) → fields.Slots → Except Fault α
  | _, .none, _ => .ok ()
  | _, .field name _ presence rest, slots =>
    let (slot, slots) : Option _ × rest.Slots := slots
    match slot <|> presence.byName? with
    | some a => (a, ·) <$> rest.finish slots
    | Option.none => .error (.missingField name)

/-- The names of the fields. -/
def names : {α : Type} → Fields α → List String
  | _, .none => []
  | _, .field name _ _ rest => name :: rest.names

end Fields

/-- The names of the cases. -/
def Cases.names : {α : Type} → Cases α → List String
  | _, .none => []
  | _, .plain name rest | _, .carrying name _ rest => name :: rest.names

/-! ## Well-formed schemas -/

/-- Whether the null value is one of the values laid out. -/
def Schema.hasNull : {α : Type} → Schema α → Bool
  | _, .maybe _ => true
  | _, .view shown _ _ _ => shown.hasNull
  | _, _ => false

mutual

/-- Whether the names of fields and cases differ, and no value under `maybe` is null itself. -/
def Schema.WellFormed : {α : Type} → Schema α → Prop
  | _, .maybe content => content.hasNull = false ∧ content.WellFormed
  | _, .list item => item.WellFormed
  | _, .record fields => fields.names.Nodup ∧ fields.WellFormed
  | _, .choice cases => cases.names.Nodup ∧ cases.WellFormed
  | _, .view shown _ _ _ => shown.WellFormed
  | _, _ => True

/-- Whether the contents of all fields are well formed. -/
def Fields.WellFormed : {α : Type} → Fields α → Prop
  | _, .none => True
  | _, .field _ content _ rest => content.WellFormed ∧ rest.WellFormed

/-- Whether the contents of all cases are well formed. -/
def Cases.WellFormed : {α : Type} → Cases α → Prop
  | _, .none => True
  | _, .plain _ rest => rest.WellFormed
  | _, .carrying _ content rest => content.WellFormed ∧ rest.WellFormed

end

mutual

/-- Well-formed schemas are told from others by their names. -/
def Schema.decidableWellFormed : {α : Type} → (schema : Schema α) → Decidable schema.WellFormed
  | _, .text | _, .flag | _, .octets _ | _, .code _ _ _ => .isTrue trivial
  | _, .maybe content =>
    haveI := content.decidableWellFormed
    inferInstanceAs (Decidable (content.hasNull = false ∧ content.WellFormed))
  | _, .list item => item.decidableWellFormed
  | _, .record fields =>
    haveI := fields.decidableWellFormed
    inferInstanceAs (Decidable (fields.names.Nodup ∧ fields.WellFormed))
  | _, .choice cases =>
    haveI := cases.decidableWellFormed
    inferInstanceAs (Decidable (cases.names.Nodup ∧ cases.WellFormed))
  | _, .view shown _ _ _ => shown.decidableWellFormed

/-- Fields with well-formed contents are told from others. -/
def Fields.decidableWellFormed : {α : Type} → (fields : Fields α) → Decidable fields.WellFormed
  | _, .none => .isTrue trivial
  | _, .field _ content _ rest =>
    haveI := content.decidableWellFormed
    haveI := rest.decidableWellFormed
    inferInstanceAs (Decidable (content.WellFormed ∧ rest.WellFormed))

/-- Cases with well-formed contents are told from others. -/
def Cases.decidableWellFormed : {α : Type} → (cases : Cases α) → Decidable cases.WellFormed
  | _, .none => .isTrue trivial
  | _, .plain _ rest => rest.decidableWellFormed
  | _, .carrying _ content rest =>
    haveI := content.decidableWellFormed
    haveI := rest.decidableWellFormed
    inferInstanceAs (Decidable (content.WellFormed ∧ rest.WellFormed))

end

instance {α : Type} (schema : Schema α) : Decidable schema.WellFormed :=
  schema.decidableWellFormed

end Delegation
