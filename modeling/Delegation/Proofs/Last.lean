/-
# The last element of its kind

Where each step replaces what earlier steps of its kind have left, the last step of the kind
decides.  So it is with collections, which keep the last element with each key, and with every state
of which a part is set by some steps and left alone by the others.

## Key constructions

* `IsLast` — the last element of a list that satisfies a predicate.

## Key results

* `isLast_cons` — the last element of its kind, along a list.
* `view_foldl_iff` — what a run of steps leaves in a part of the state.
* `Keyed.mem_ofList_iff` — a collection has the last element with each key.
-/
import Delegation.Keyed

namespace Delegation

open Std

variable {α β σ : Type} {p : α → Prop} {xs : List α} {x a : α}

/-- `a` is the last element of the list that satisfies `p`. -/
def IsLast (p : α → Prop) (xs : List α) (a : α) : Prop :=
  p a ∧ ∃ before after, xs = before ++ a :: after ∧ ∀ x ∈ after, ¬ p x

theorem not_isLast_nil : ¬ IsLast p [] a := by
  rintro ⟨-, before, after, hnil, -⟩
  exact List.append_ne_nil_of_right_ne_nil before (List.cons_ne_nil a after) hnil.symm

/-- An element in front is the last one iff no element behind it satisfies the predicate. -/
theorem isLast_cons :
    IsLast p (x :: xs) a ↔ IsLast p xs a ∨ x = a ∧ p a ∧ ∀ y ∈ xs, ¬ p y := by
  constructor
  · rintro ⟨ha, before, after, hsplit, hafter⟩
    cases before with
    | nil =>
      obtain ⟨rfl, rfl⟩ := List.cons.inj hsplit
      exact .inr ⟨rfl, ha, hafter⟩
    | cons y before =>
      obtain ⟨-, rfl⟩ := List.cons.inj hsplit
      exact .inl ⟨ha, before, after, rfl, hafter⟩
  · rintro (⟨ha, before, after, rfl, hafter⟩ | ⟨rfl, ha, hxs⟩)
    · exact ⟨ha, x :: before, after, rfl, hafter⟩
    · exact ⟨ha, [], xs, rfl, hxs⟩

/-- Take a part of the state that steps of a kind set, each to what it carries, and that other steps
leave alone.  After a run it is what the last step of the kind carries, or else what it was. -/
theorem view_foldl_iff (step : σ → α → σ) (view : σ → Option β) (carry : β → α)
    (h : ∀ s x b, view (step s x) = some b ↔ p x ∧ x = carry b ∨ ¬ p x ∧ view s = some b)
    (s : σ) (b : β) :
    view (xs.foldl step s) = some b ↔
      IsLast p xs (carry b) ∨ (∀ x ∈ xs, ¬ p x) ∧ view s = some b := by
  induction xs generalizing s with
  | nil => simp [not_isLast_nil]
  | cons x xs ih =>
    rw [List.foldl_cons, ih, h, isLast_cons, List.forall_mem_cons, or_assoc]
    refine or_congr Iff.rfl ?_
    constructor
    · rintro ⟨hxs, ⟨hp, rfl⟩ | ⟨hp, hs⟩⟩
      · exact .inl ⟨rfl, hp, hxs⟩
      · exact .inr ⟨⟨hp, hxs⟩, hs⟩
    · rintro (⟨rfl, hp, hxs⟩ | ⟨⟨hp, hxs⟩, hs⟩)
      · exact ⟨hxs, .inl ⟨hp, rfl⟩⟩
      · exact ⟨hxs, .inr ⟨hp, hs⟩⟩

namespace Keyed

variable {κ : Type} [Ord κ] [TransOrd κ] [LawfulEqOrd κ] [DecidableEq κ] {key : α → κ}

/-- What insertions leave under a key is the last element with this key. -/
theorem get?_foldl_insert_iff {s : Keyed key} {k : κ} :
    (xs.foldl insert s).get? k = some a ↔
      IsLast (fun x => key x = k) xs a ∨ (∀ x ∈ xs, key x ≠ k) ∧ s.get? k = some a := by
  refine view_foldl_iff insert (fun s : Keyed key => s.get? k) id (fun s x b => ?_) s a
  rw [get?_insert]
  by_cases hk : key x = k <;> simp [hk]

/-- A collection has those elements of a list that are the last ones with their keys. -/
theorem mem_ofList_iff : a ∈ (ofList key xs).toList ↔ IsLast (fun x => key x = key a) xs a := by
  have hget : a ∈ (ofList key xs).toList ↔ (ofList key xs).get? (key a) = some a := by
    rw [get?_eq_some_iff, and_iff_left rfl]
  rw [hget, ofList, get?_foldl_insert_iff, get?_empty]
  simp

end Keyed

end Delegation
