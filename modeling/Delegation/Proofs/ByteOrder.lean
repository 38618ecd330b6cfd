/-
# The order of texts is the order of their bytes

Texts are compared character by character, by code points.  Comparing their bytes in UTF-8 decides
in the same way: the first byte of a character grows with the number of bytes that follow, and among
characters of one length the code point stands in the bytes digit by digit, the highest digit first.

## Key results

* `Utf8.utf8EncodeChar_append_lt` — the smaller of two characters has the smaller bytes, whatever
  follows.
* `Utf8.encode_lt_encode_iff` — texts are ordered as their bytes are.
-/
import Delegation.Hash.Bytes
import Mathlib.Order.Basic
import Mathlib.Tactic.SplitIfs

namespace Delegation.Utf8

/-- A text is encoded character by character. -/
theorem encode_eq_flatMap (s : String) : encode s = s.toList.flatMap String.utf8EncodeChar := by
  obtain ⟨cs, rfl⟩ : ∃ cs, s = String.ofList cs := ⟨s.toList, String.ofList_toList.symm⟩
  show (String.ofList cs).toByteArray.data.toList = _
  rw [String.toByteArray_ofList, List.utf8Encode, List.toList_data_toByteArray,
    String.toList_ofList]

/-! ## Characters -/

/-- Code points have at most four digits to base 64, and the highest one is at most four. -/
theorem codePoint_lt (c : Char) : c.val.toNat < 0x110000 := by
  rcases c.valid with h | h
  · exact Nat.lt_trans h (by decide)
  · exact h.2

/-- The bytes of the smaller character are smaller, and what follows does not count. -/
theorem utf8EncodeChar_append_lt {c d : Char} (h : c < d) (u v : List UInt8) :
    String.utf8EncodeChar c ++ u < String.utf8EncodeChar d ++ v := by
  have hlt : c.val.toNat < d.val.toNat := h
  have hmax : d.val.toNat < 0x110000 := codePoint_lt d
  generalize hm : c.val.toNat = m at hlt
  generalize hn : d.val.toNat = n at hlt hmax
  unfold String.utf8EncodeChar
  rw [hm, hn]
  dsimp only
  -- One case for each pair of lengths.  No digit is cut off, so the bytes are numbers that omega
  -- compares from the first one on.
  split_ifs <;>
    simp only [List.cons_append, List.nil_append, List.cons_lt_cons_iff, UInt8.lt_iff_toNat_lt,
      ← UInt8.toNat_inj, UInt8.toNat_ofNat', Nat.reducePow] <;>
    simp (disch := omega) only [Nat.mod_eq_of_lt] <;>
    omega

/-- A character has at least one byte, so a text is above its own beginning. -/
theorem nil_lt_flatMap (c : Char) (cs : List Char) :
    [] < (c :: cs).flatMap String.utf8EncodeChar := by
  rw [List.flatMap_cons]
  cases hc : String.utf8EncodeChar c with
  | nil => exact absurd hc String.utf8EncodeChar_ne_nil
  | cons b bs => exact List.nil_lt_cons b _

/-! ## Texts -/

/-- The bytes of the smaller list of characters are smaller. -/
theorem flatMap_lt_flatMap {cs ds : List Char} (h : cs < ds) :
    cs.flatMap String.utf8EncodeChar < ds.flatMap String.utf8EncodeChar := by
  induction h with
  | nil => exact nil_lt_flatMap _ _
  | cons _ ih =>
    rw [List.flatMap_cons, List.flatMap_cons]
    exact List.append_left_lt ih
  | rel hlt =>
    rw [List.flatMap_cons, List.flatMap_cons]
    exact utf8EncodeChar_append_lt hlt _ _

/-- The bytes of the smaller text are smaller. -/
theorem encode_lt_encode {s t : String} (h : s < t) : encode s < encode t := by
  rw [encode_eq_flatMap, encode_eq_flatMap]
  exact flatMap_lt_flatMap h

/-- Texts are ordered as their bytes are. -/
theorem encode_lt_encode_iff {s t : String} : encode s < encode t ↔ s < t := by
  constructor
  · intro h
    by_contra hnot
    have hle : t ≤ s := String.not_lt.mp hnot
    by_cases heq : t = s
    · rw [heq] at h
      exact List.lt_irrefl _ h
    · have hlt : t < s := Std.lt_of_le_of_ne hle heq
      exact List.lt_asymm h (encode_lt_encode hlt)
  · exact encode_lt_encode

end Delegation.Utf8
