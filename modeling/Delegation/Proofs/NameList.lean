/-
# Bytes that determine names

The digest of a list of names is the hash of bytes in which each name stands behind its length.  As
long as the lengths fit into eight bytes, these bytes determine the names, whatever the names
contain: the first eight bytes say where the first name ends, and so on.

## Key results

* `Bytes.eq_of_littleEndian_eq` — a number that fits is determined by its bytes.
* `eq_of_nameListBytes_eq` — lists of short names with the same bytes are equal.
* `bytes_determine_names` — two lists of names are hashed from the same bytes iff they are equal.
-/
import Delegation.Digest
import Mathlib.Algebra.Group.Nat.Defs
import Mathlib.Data.List.Nodup

namespace Delegation

/-- A number that fits into the given count of bytes is determined by them. -/
theorem Bytes.eq_of_littleEndian_eq {width m n : Nat} (hm : m < Nat.pow 256 width)
    (hn : n < Nat.pow 256 width) (h : littleEndian width m = littleEndian width n) : m = n := by
  have hvalue := congrArg ofLittleEndian h
  rw [ofLittleEndian_littleEndian, ofLittleEndian_littleEndian] at hvalue
  rwa [Nat.mod_eq_of_lt hm, Nat.mod_eq_of_lt hn] at hvalue

/-- Names whose length fits into eight bytes. -/
def ShortName (name : String) : Prop := (Utf8.encode name).length < 2 ^ 64

instance (name : String) : Decidable (ShortName name) := inferInstanceAs (Decidable (_ < _))

/-- Bytes that start with a short name behind its length determine this name, and what follows
it. -/
theorem eq_of_nameListBytes_cons_eq {x y : String} {xs ys : List String} (hx : ShortName x)
    (hy : ShortName y) (h : nameListBytes (x :: xs) = nameListBytes (y :: ys)) :
    x = y ∧ nameListBytes xs = nameListBytes ys := by
  rw [nameListBytes_cons, nameListBytes_cons, List.append_assoc, List.append_assoc] at h
  have hprefix : (Bytes.littleEndian 8 (Utf8.encode x).length).length =
      (Bytes.littleEndian 8 (Utf8.encode y).length).length := by
    rw [Bytes.length_littleEndian, Bytes.length_littleEndian]
  obtain ⟨hlength, hrest⟩ := List.append_inj h hprefix
  have hfits {name : String} (h : ShortName name) : (Utf8.encode name).length < Nat.pow 256 8 := h
  have hlengths := Bytes.eq_of_littleEndian_eq (hfits hx) (hfits hy) hlength
  obtain ⟨hbytes, hrest⟩ := List.append_inj hrest hlengths
  exact ⟨Utf8.encode_injective hbytes, hrest⟩

/-- The bytes of a list with a name are not empty. -/
theorem nameListBytes_cons_ne_nil (x : String) (xs : List String) :
    nameListBytes (x :: xs) ≠ [] := by
  intro h
  have hlength := congrArg List.length h
  rw [nameListBytes_cons, List.append_assoc, List.length_append, Bytes.length_littleEndian,
    List.length_nil] at hlength
  omega

/-- Lists of short names with the same bytes are equal. -/
theorem eq_of_nameListBytes_eq {xs ys : List String} (hx : ∀ n ∈ xs, ShortName n)
    (hy : ∀ n ∈ ys, ShortName n) (h : nameListBytes xs = nameListBytes ys) : xs = ys := by
  induction xs generalizing ys with
  | nil =>
    cases ys with
    | nil => rfl
    | cons y ys => exact absurd h.symm (nameListBytes_cons_ne_nil y ys)
  | cons x xs ih =>
    cases ys with
    | nil => exact absurd h (nameListBytes_cons_ne_nil x xs)
    | cons y ys =>
      rw [List.forall_mem_cons] at hx hy
      obtain ⟨rfl, hrest⟩ := eq_of_nameListBytes_cons_eq hx.1 hy.1 h
      rw [ih hx.2 hy.2 hrest]

/-- **The bytes that are hashed determine the names.**  The bytes of two lists of names, whose
lengths fit into eight bytes, are equal iff the lists are equal, name by name.  So lists that differ
in the boundaries between names, in their order, in their number or by empty names are never hashed
from the same bytes, whatever the names contain. -/
theorem bytes_determine_names {xs ys : List String} (hx : ∀ n ∈ xs, ShortName n)
    (hy : ∀ n ∈ ys, ShortName n) : nameListBytes xs = nameListBytes ys ↔ xs = ys := by
  constructor
  · intro h
    exact eq_of_nameListBytes_eq hx hy h
  · intro h
    rw [h]

/-- Lists that differ in one respect each have different bytes.  The last name spells what stands
behind the first length of another list, with the length of the second name in it. -/
theorem lists_of_like_names_have_own_bytes :
    let lists : List (List String) := [[], [""], ["", ""], ["ab", "c"], ["a", "bc"], ["abc"],
      ["a", "b"], ["b", "a"], ["a", "b", ""], ["a\x01\x00\x00\x00\x00\x00\x00\x00b"]]
    (∀ names ∈ lists, ∀ n ∈ names, ShortName n) ∧ (lists.map nameListBytes).Nodup := by
  intro lists
  have hshort : ∀ names ∈ lists, ∀ n ∈ names, ShortName n := by decide +kernel
  have hlists : lists.Nodup := by decide
  refine ⟨hshort, List.Nodup.map_on ?_ hlists⟩
  intro xs hxs ys hys h
  exact (bytes_determine_names (hshort xs hxs) (hshort ys hys)).mp h

end Delegation
