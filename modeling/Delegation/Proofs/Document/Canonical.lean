/-
# Collections listed in documents

A document lists a collection, and a collection is made from whatever a document lists.  The listing
of a collection is always read back; a list in a document is written again as it was only if it is
in order and free of repetitions, and each of its elements is written again as it was.

## Key constructions

* `AscendingBy` — a list in strictly ascending order of keys.

## Key results

* `Keyed.ofList_map_toList` — a collection is made again from the list in its document.
* `Keyed.map_toList_ofList_iff` — when a list in a document is unchanged by a collection.
-/
import Delegation.Keyed

namespace Delegation

open Std

variable {α β κ : Type} [Ord κ] {key : α → κ}

/-- The list is in strictly ascending order of keys. -/
def AscendingBy (key : α → κ) (xs : List α) : Prop :=
  xs.Pairwise fun a b => compare (key a) (key b) = .lt

instance (key : α → κ) (xs : List α) : Decidable (AscendingBy key xs) :=
  inferInstanceAs (Decidable (xs.Pairwise _))

theorem ascendingBy_map {f : β → α} {xs : List β} :
    AscendingBy key (xs.map f) ↔ AscendingBy (fun b => key (f b)) xs := List.pairwise_map

namespace Keyed

variable [TransOrd κ] [LawfulEqOrd κ] {write : α → β} {read : β → α}

/-- A collection is made again from the list in its document. -/
theorem ofList_map_toList (h : ∀ a, read (write a) = a) (s : Keyed key) :
    ofList key ((s.toList.map write).map read) = s := by
  have hread : read ∘ write = id := funext h
  rw [List.map_map, hread, List.map_id, ofList_toList]

/-- A list in a document is unchanged by a collection iff it is in order, and each of its elements
is unchanged. -/
theorem map_toList_ofList_iff (h : ∀ a, read (write a) = a) {ds : List β} :
    (ofList key (ds.map read)).toList.map write = ds ↔
      AscendingBy (fun d => key (read d)) ds ∧ ∀ d ∈ ds, write (read d) = d := by
  constructor
  · intro hds
    rw [← hds]
    constructor
    · rw [← ascendingBy_map, List.map_map, show read ∘ write = id from funext h, List.map_id]
      exact (ofList key (ds.map read)).ascending
    · intro d hd
      obtain ⟨a, -, rfl⟩ := List.mem_map.mp hd
      rw [h]
  · rintro ⟨hascending, hsame⟩
    have hlist : (ofList key (ds.map read)).toList = ds.map read :=
      toList_ofList (ascendingBy_map.mpr hascending)
    rw [hlist, List.map_map]
    exact (List.map_congr_left (g := id) hsame).trans (List.map_id ds)

/-- Elements that are collected are listed as they were iff they were in order. -/
theorem toList_ofList_iff {xs : List α} : (ofList key xs).toList = xs ↔ AscendingBy key xs := by
  constructor
  · intro h
    rw [← h]
    exact (ofList key xs).ascending
  · exact toList_ofList

end Keyed

end Delegation
