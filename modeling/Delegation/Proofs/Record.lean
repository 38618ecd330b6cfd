/-
# Records in whatever format

A record is written as the list of the fields that are not left out, each under its name, and it is
read by filling one place for each field.  Whatever the format, a record that was written has all
its places filled at its end, but for the fields that were left out.

## Key constructions

* `Fields.written` — the fields that are not left out, as they are written.
* `Fields.slotsOf` — the places as they are filled at the end of a record.

## Key results

* `Fields.name_mem_of_mem_written` — what is written stands under the names of fields.
* `Fields.finish_slotsOf` — the record is made from these places.
-/
import Delegation.Codec.Schema

namespace Delegation

/-- A field that is left out stands for its own value when it is missing. -/
theorem Presence.byName?_of_omits {α : Type} {p : Presence α} {a : α} (h : p.omits a = true) :
    p.byName? = some a := by
  cases p with
  | required | nullable _ => cases h
  | optional default omits omits_default => exact congrArg some (omits_default a h).symm

namespace Fields

section Written

variable {ω : Type} {write : {α : Type} → Schema α → α → ω}

/-- The fields that are not left out, in order, each with its name and what is written for it. -/
def written (write : {α : Type} → Schema α → α → ω) : {α : Type} → Fields α → α → List (String × ω)
  | _, .none, _ => []
  | _, .field name content presence rest, (a, b) =>
    if presence.omits a then rest.written write b
    else (name, write content a) :: rest.written write b

theorem name_mem_of_mem_written : {α : Type} → (fields : Fields α) → (a : α) →
    ∀ m ∈ fields.written write a, m.1 ∈ fields.names
  | _, .none, _, _, h => absurd h List.not_mem_nil
  | _, .field _ _ presence rest, (a, b), m, h => by
    rw [written] at h
    rw [names, List.mem_cons]
    split at h
    · exact .inr (rest.name_mem_of_mem_written b m h)
    · rcases List.mem_cons.mp h with rfl | h
      · exact .inl rfl
      · exact .inr (rest.name_mem_of_mem_written b m h)

end Written

/-- The fields of a record that was read to its end; those that were left out are missing. -/
def slotsOf : {α : Type} → (fields : Fields α) → α → fields.Slots
  | _, .none, _ => ()
  | _, .field _ _ presence rest, (a, b) =>
    ((if presence.omits a then Option.none else some a, rest.slotsOf b) : Option _ × rest.Slots)

/-- A record is made from the fields that were written for it. -/
theorem finish_slotsOf : {α : Type} → (fields : Fields α) → (a : α) →
    fields.finish (fields.slotsOf a) = .ok a
  | _, .none, _ => rfl
  | _, .field name content presence rest, (a, b) => by
    have hslot : ((if presence.omits a then Option.none else some a) <|> presence.byName?) =
        some a := by
      cases h : presence.omits a with
      | true => exact Presence.byName?_of_omits h
      | false => rfl
    unfold finish
    simp only [slotsOf, hslot, rest.finish_slotsOf b]
    rfl

end Fields

end Delegation
