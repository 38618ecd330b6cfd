/-
# Bytes

Texts and numbers as bytes: UTF-8, little-endian and big-endian numbers, and hexadecimal.

## Key constructions

* `Utf8.encode`, `Utf8.decode?` — between a text and its bytes.
* `Bytes.littleEndian`, `Bytes.bigEndian` — a number in a fixed count of bytes.
* `Bytes.hex`, `Bytes.ofHex?` — between bytes and hexadecimal digits.

## Key results

* `Utf8.decode?_encode`, `Utf8.encode_of_decode?` — the bytes and the text determine each other.
-/

namespace Delegation

namespace Utf8

/-- The bytes of a text. -/
def encode (s : String) : List UInt8 := s.toByteArray.data.toList

/-- The text that the bytes encode, if they are well-formed UTF-8. -/
def decode? (bytes : List UInt8) : Option String := String.fromUTF8? ⟨bytes.toArray⟩

@[simp] theorem decode?_encode (s : String) : decode? (encode s) = some s := by
  simp [decode?, encode, String.fromUTF8?, String.fromUTF8, s.isValidUTF8]

theorem encode_of_decode? {bytes : List UInt8} {s : String} (h : decode? bytes = some s) :
    encode s = bytes := by
  unfold decode? String.fromUTF8? at h
  split at h
  · obtain rfl := Option.some.inj h
    simp [encode, String.fromUTF8]
  · simp at h

theorem encode_injective {s t : String} (h : encode s = encode t) : s = t :=
  Option.some.inj (by rw [← decode?_encode s, h, decode?_encode])

end Utf8

namespace Bytes

/-- The low `width` bytes of a number, the lowest first. -/
def littleEndian : (width : Nat) → Nat → List UInt8
  | 0, _ => []
  | width + 1, n => UInt8.ofNat n :: littleEndian width (n / 256)

/-- The number whose bytes are given, the lowest first. -/
def ofLittleEndian : List UInt8 → Nat
  | [] => 0
  | b :: bs => b.toNat + 256 * ofLittleEndian bs

/-- The low `width` bytes of a number, the highest first. -/
def bigEndian (width n : Nat) : List UInt8 := (littleEndian width n).reverse

/-- The number whose bytes are given, the highest first. -/
def ofBigEndian (bytes : List UInt8) : Nat := ofLittleEndian bytes.reverse

@[simp] theorem length_littleEndian (width n : Nat) : (littleEndian width n).length = width := by
  induction width generalizing n with
  | zero => rfl
  | succ width ih => simp [littleEndian, ih]

theorem ofLittleEndian_littleEndian (width n : Nat) :
    ofLittleEndian (littleEndian width n) = n % Nat.pow 256 width := by
  induction width generalizing n with
  | zero => simp [littleEndian, ofLittleEndian, Nat.mod_one]
  | succ width ih =>
    have h : (UInt8.ofNat n).toNat = n % 256 := by simp
    show ofLittleEndian (littleEndian (width + 1) n) = n % (Nat.pow 256 width * 256)
    rw [littleEndian, ofLittleEndian, ih, h, Nat.mul_comm (Nat.pow 256 width) 256, Nat.mod_mul]

@[simp] theorem length_bigEndian (width n : Nat) : (bigEndian width n).length = width := by
  simp [bigEndian]

theorem ofBigEndian_bigEndian (width n : Nat) :
    ofBigEndian (bigEndian width n) = n % Nat.pow 256 width := by
  simp [ofBigEndian, bigEndian, ofLittleEndian_littleEndian]

/-! ## Hexadecimal -/

/-- The lower-case digit for a number below sixteen. -/
def hexDigit (n : Nat) : Char := if n < 10 then Char.ofNat (48 + n) else Char.ofNat (87 + n)

/-- The value of a hexadecimal digit of either case. -/
def hexValue? (c : Char) : Option Nat :=
  if '0' ≤ c ∧ c ≤ '9' then some (c.toNat - 48)
  else if 'a' ≤ c ∧ c ≤ 'f' then some (c.toNat - 87)
  else if 'A' ≤ c ∧ c ≤ 'F' then some (c.toNat - 55)
  else none

/-- Two digits for each byte. -/
def hexChars (bytes : List UInt8) : List Char :=
  bytes.flatMap fun b => [hexDigit (b.toNat / 16), hexDigit (b.toNat % 16)]

/-- The bytes in hexadecimal. -/
def hex (bytes : List UInt8) : String := String.ofList (hexChars bytes)

/-- The bytes that pairs of digits spell. -/
def ofHexChars? : List Char → Option (List UInt8)
  | [] => some []
  | [_] => none
  | high :: low :: rest => do
    let h ← hexValue? high
    let l ← hexValue? low
    let bytes ← ofHexChars? rest
    return UInt8.ofNat (16 * h + l) :: bytes

/-- The bytes that a hexadecimal text spells. -/
def ofHex? (s : String) : Option (List UInt8) := ofHexChars? s.toList

end Bytes

end Delegation
