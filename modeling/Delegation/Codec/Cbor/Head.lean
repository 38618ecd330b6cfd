/-
# Heads of CBOR items

Every CBOR item starts with a head: three bits for its major type, and a number, which is a
value, a length, a tag or nothing at all.

## Key constructions

* `Cbor.Head` — the heads by meaning.
* `Cbor.Reader` — a reader that consumes bytes from the front.
* `Cbor.pull` — reads a head.
* `Cbor.headBytes` — the shortest head with a number.
-/
import Delegation.Codec.Fault
import Delegation.Hash.Bytes

namespace Delegation.Cbor

/-- The head of an item.  A length is `none` where the item goes on until a break. -/
inductive Head
  | positive (n : Nat)
  | negative (n : Nat)
  | bytes (length : Option Nat)
  | text (length : Option Nat)
  | array (length : Option Nat)
  | map (length : Option Nat)
  | tag (n : Nat)
  | simple (n : Nat)
  | float
  | stop
deriving DecidableEq, Repr

/-- A reader takes bytes from the front of its input, or stops at a fault. -/
abbrev Reader : Type → Type := StateT (List UInt8) (Except Fault)

/-- Takes the next `n` bytes. -/
def take (n : Nat) : Reader (List UInt8) := fun input =>
  if n ≤ input.length then .ok (input.splitAt n) else .error .endOfInput

/-- The number in a head, given its low five bits; `none` stands for an indefinite length. -/
def pullNumber (low : Nat) : Reader (Option Nat) := do
  if low < 24 then return some low
  else if low < 28 then
    let bytes ← take (Nat.pow 2 (low - 24))
    return some (Bytes.ofBigEndian bytes)
  else if low = 31 then return none
  else throw .malformed

/-- The head with a major type and a number. -/
def Head.ofParts (major low : Nat) (number : Option Nat) : Except Fault Head :=
  match major, number with
  | 0, some n => .ok (.positive n)
  | 1, some n => .ok (.negative n)
  | 2, length => .ok (.bytes length)
  | 3, length => .ok (.text length)
  | 4, length => .ok (.array length)
  | 5, length => .ok (.map length)
  | 6, some n => .ok (.tag n)
  | 7, some n => .ok (if low < 25 then .simple n else .float)
  | 7, none => .ok .stop
  | _, _ => .error .malformed

/-- Reads a head. -/
def pull : Reader Head := do
  let bytes ← take 1
  let first := Bytes.ofBigEndian bytes
  let number ← pullNumber (first % 32)
  Head.ofParts (first / 32) (first % 32) number

/-- Reads a head and leaves it in the input. -/
def peek : Reader Head := do
  let input ← get
  let head ← pull
  set input
  return head

/-! ## Writing -/

/-- The shortest head with a major type and a number below `2 ^ 64`. -/
def headBytes (major n : Nat) : List UInt8 :=
  let first (low : Nat) : UInt8 := UInt8.ofNat (32 * major + low)
  if n < 24 then [first n]
  else if n < 0x100 then first 24 :: Bytes.bigEndian 1 n
  else if n < 0x10000 then first 25 :: Bytes.bigEndian 2 n
  else if n < 0x100000000 then first 26 :: Bytes.bigEndian 4 n
  else first 27 :: Bytes.bigEndian 8 n

/-- A text behind its length. -/
def textBytes (s : String) : List UInt8 :=
  let bytes := Utf8.encode s
  headBytes 3 bytes.length ++ bytes

end Delegation.Cbor
