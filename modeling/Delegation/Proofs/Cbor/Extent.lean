/-
# What CBOR can hold

CBOR puts the lengths of texts and lists in front of them, in eight bytes at most, so a value can be
written only if nothing in it is longer than that.  Names are read through a window, and nesting is
limited; both are up to the schema and not to the value.

## Key constructions

* `Schema.Fits` — the lengths of the texts and lists of a value fit into a head.
* `Schema.Bounded` — names fit into the window, and what a schema counts fits into a head.
* `Schema.depth` — how deeply values are nested.
-/
import Delegation.Codec.Cbor.Form
import Delegation.Proofs.NameList

namespace Delegation

open Cbor

/-! ## Values -/

mutual

/-- Whether the lengths of all texts and lists in a value fit into a head. -/
def Schema.Fits : {α : Type} → Schema α → α → Prop
  | _, .text, s => ShortName s
  | _, .maybe _, none => True
  | _, .maybe content, some a => content.Fits a
  | _, .list item, as => as.length < 2 ^ 64 ∧ ∀ a ∈ as, item.Fits a
  | _, .record fields, a => fields.Fits a
  | _, .choice cases, a => cases.Fits a
  | _, .view shown toView _ _, b => shown.Fits (toView b)
  | _, _, _ => True

/-- Whether the values of all fields fit. -/
def Fields.Fits : {α : Type} → Fields α → α → Prop
  | _, .none, _ => True
  | _, .field _ content _ rest, (a, b) => content.Fits a ∧ rest.Fits b

/-- Whether the value of a case fits. -/
def Cases.Fits : {α : Type} → Cases α → α → Prop
  | _, .plain _ _, .inl _ => True
  | _, .carrying _ content _, .inl a => content.Fits a
  | _, .plain _ rest, .inr b | _, .carrying _ _ rest, .inr b => rest.Fits b

end

mutual

/-- The lengths of texts and lists can be measured. -/
def Schema.decidableFits : {α : Type} → (schema : Schema α) → (a : α) → Decidable (schema.Fits a)
  | _, .text, s => inferInstanceAs (Decidable (ShortName s))
  | _, .flag, _ | _, .octets _, _ | _, .code _ _ _, _ | _, .maybe _, none => .isTrue trivial
  | _, .maybe content, some a => content.decidableFits a
  | _, .list item, as =>
    haveI := item.decidableFits
    inferInstanceAs (Decidable (as.length < 2 ^ 64 ∧ ∀ a ∈ as, item.Fits a))
  | _, .record fields, a => fields.decidableFits a
  | _, .choice cases, a => cases.decidableFits a
  | _, .view shown toView _ _, b => shown.decidableFits (toView b)

/-- The lengths in the values of fields can be measured. -/
def Fields.decidableFits : {α : Type} → (fields : Fields α) → (a : α) → Decidable (fields.Fits a)
  | _, .none, _ => .isTrue trivial
  | _, .field _ content _ rest, (a, b) =>
    haveI := content.decidableFits a
    haveI := rest.decidableFits b
    inferInstanceAs (Decidable (content.Fits a ∧ rest.Fits b))

/-- The lengths in the value of a case can be measured. -/
def Cases.decidableFits : {α : Type} → (cases : Cases α) → (a : α) → Decidable (cases.Fits a)
  | _, .plain _ _, .inl _ => .isTrue trivial
  | _, .carrying _ content _, .inl a => content.decidableFits a
  | _, .plain _ rest, .inr b | _, .carrying _ _ rest, .inr b => rest.decidableFits b

end

instance {α : Type} (schema : Schema α) (a : α) : Decidable (schema.Fits a) :=
  schema.decidableFits a

/-! ## Schemas -/

mutual

/-- Whether all names fit into the window, and the lengths that the schema fixes into a head. -/
def Schema.Bounded : {α : Type} → Schema α → Prop
  | _, .octets n => n < 2 ^ 64
  | _, .code all spell _ => ∀ a ∈ all, (Utf8.encode (spell a)).length ≤ window
  | _, .maybe content => content.Bounded
  | _, .list item => item.Bounded
  | _, .record fields => fields.names.length < 2 ^ 64 ∧ fields.Bounded
  | _, .choice cases => cases.Bounded
  | _, .view shown _ _ _ => shown.Bounded
  | _, _ => True

/-- Whether the names of all fields fit, and their contents do. -/
def Fields.Bounded : {α : Type} → Fields α → Prop
  | _, .none => True
  | _, .field name content _ rest =>
    (Utf8.encode name).length ≤ window ∧ content.Bounded ∧ rest.Bounded

/-- Whether the names of all cases fit, and their contents do. -/
def Cases.Bounded : {α : Type} → Cases α → Prop
  | _, .none => True
  | _, .plain name rest => (Utf8.encode name).length ≤ window ∧ rest.Bounded
  | _, .carrying name content rest =>
    (Utf8.encode name).length ≤ window ∧ content.Bounded ∧ rest.Bounded

end

mutual

/-- The names and lengths of a schema can be measured. -/
def Schema.decidableBounded : {α : Type} → (schema : Schema α) → Decidable schema.Bounded
  | _, .text | _, .flag => .isTrue trivial
  | _, .octets n => inferInstanceAs (Decidable (n < 2 ^ 64))
  | _, .code all spell _ =>
    inferInstanceAs (Decidable (∀ a ∈ all, (Utf8.encode (spell a)).length ≤ window))
  | _, .maybe content => content.decidableBounded
  | _, .list item => item.decidableBounded
  | _, .record fields =>
    haveI := fields.decidableBounded
    inferInstanceAs (Decidable (fields.names.length < 2 ^ 64 ∧ fields.Bounded))
  | _, .choice cases => cases.decidableBounded
  | _, .view shown _ _ _ => shown.decidableBounded

/-- The names and lengths of fields can be measured. -/
def Fields.decidableBounded : {α : Type} → (fields : Fields α) → Decidable fields.Bounded
  | _, .none => .isTrue trivial
  | _, .field name content _ rest =>
    haveI := content.decidableBounded
    haveI := rest.decidableBounded
    inferInstanceAs
      (Decidable ((Utf8.encode name).length ≤ window ∧ content.Bounded ∧ rest.Bounded))

/-- The names and lengths of cases can be measured. -/
def Cases.decidableBounded : {α : Type} → (cases : Cases α) → Decidable cases.Bounded
  | _, .none => .isTrue trivial
  | _, .plain name rest =>
    haveI := rest.decidableBounded
    inferInstanceAs (Decidable ((Utf8.encode name).length ≤ window ∧ rest.Bounded))
  | _, .carrying name content rest =>
    haveI := content.decidableBounded
    haveI := rest.decidableBounded
    inferInstanceAs
      (Decidable ((Utf8.encode name).length ≤ window ∧ content.Bounded ∧ rest.Bounded))

end

instance {α : Type} (schema : Schema α) : Decidable schema.Bounded := schema.decidableBounded

mutual

/-- How deeply values are nested. -/
def Schema.depth : {α : Type} → Schema α → Nat
  | _, .text | _, .flag => 0
  | _, .octets _ | _, .code _ _ _ => 1
  | _, .maybe content => content.depth
  | _, .list item => item.depth + 1
  | _, .record fields => fields.depth + 1
  | _, .choice cases => cases.depth + 1
  | _, .view shown _ _ _ => shown.depth

/-- How deeply the values of fields are nested. -/
def Fields.depth : {α : Type} → Fields α → Nat
  | _, .none => 0
  | _, .field _ content _ rest => max content.depth rest.depth

/-- How deeply the values of cases are nested. -/
def Cases.depth : {α : Type} → Cases α → Nat
  | _, .none => 0
  | _, .plain _ rest => rest.depth
  | _, .carrying _ content rest => max content.depth rest.depth

end

end Delegation
