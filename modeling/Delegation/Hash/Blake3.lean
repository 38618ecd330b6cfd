/-
# BLAKE3

The unkeyed BLAKE3 hash with its 32-byte output.  The input is cut into chunks of 1024 bytes
and each chunk into blocks of 64 bytes.  Blocks are chained inside a chunk, and the chunks are
the leaves of a binary tree in which every left subtree is full and as large as possible.

## Key constructions

* `Blake3.compress` — the compression function.
* `Blake3.Node` — a compression whose flags still have to learn whether it is the root.
* `Blake3.chunk`, `Blake3.tree` — the last compression of a chunk, and of a tree of chunks.
* `Blake3.hash` — the hash of a list of bytes.
-/
import Delegation.Hash.Bytes

namespace Delegation.Blake3

/-- A row of 32-bit words. -/
abbrev Words (n : Nat) : Type := Vector UInt32 n

/-! ## Compression -/

/-- The initial chaining value. -/
def initial : Words 8 :=
  #v[0x6A09E667, 0xBB67AE85, 0x3C6EF372, 0xA54FF53A, 0x510E527F, 0x9B05688C, 0x1F83D9AB, 0x5BE0CD19]

/-- Rotation to the right. -/
def rotateRight (x : UInt32) (n : UInt32) : UInt32 := (x >>> n) ||| (x <<< (32 - n))

/-- Mixes two message words into four state words. -/
def quarter (v : Words 16) (a b c d : Fin 16) (x y : UInt32) : Words 16 :=
  let v := v.set a (v[a] + v[b] + x)
  let v := v.set d (rotateRight (v[d] ^^^ v[a]) 16)
  let v := v.set c (v[c] + v[d])
  let v := v.set b (rotateRight (v[b] ^^^ v[c]) 12)
  let v := v.set a (v[a] + v[b] + y)
  let v := v.set d (rotateRight (v[d] ^^^ v[a]) 8)
  let v := v.set c (v[c] + v[d])
  v.set b (rotateRight (v[b] ^^^ v[c]) 7)

/-- One round: the four columns, then the four diagonals. -/
def round (v m : Words 16) : Words 16 :=
  let v := quarter v 0 4 8 12 m[0] m[1]
  let v := quarter v 1 5 9 13 m[2] m[3]
  let v := quarter v 2 6 10 14 m[4] m[5]
  let v := quarter v 3 7 11 15 m[6] m[7]
  let v := quarter v 0 5 10 15 m[8] m[9]
  let v := quarter v 1 6 11 12 m[10] m[11]
  let v := quarter v 2 7 8 13 m[12] m[13]
  quarter v 3 4 9 14 m[14] m[15]

/-- The order in which the next round takes the message words. -/
def permute (m : Words 16) : Words 16 :=
  #v[m[2], m[6], m[3], m[10], m[7], m[0], m[4], m[13], m[1], m[11], m[12], m[5], m[9], m[14],
    m[15], m[8]]

/-- The given number of rounds. -/
def rounds : Nat → Words 16 → Words 16 → Words 16
  | 0, v, _ => v
  | n + 1, v, m => rounds n (round v m) (permute m)

/-- The flags of a compression. -/
structure Flags where
  chunkStart : Bool
  chunkEnd : Bool
  parent : Bool
  root : Bool

/-- The flags as bits of a word. -/
def Flags.word (f : Flags) : UInt32 :=
  (if f.chunkStart then 1 else 0) ||| (if f.chunkEnd then 2 else 0) |||
    (if f.parent then 4 else 0) ||| (if f.root then 8 else 0)

/-- The compression function, cut to the first half of its output. -/
def compress (chaining : Words 8) (block : Words 16) (counter length : Nat) (flags : Flags) :
    Words 8 :=
  let start : Words 16 := chaining ++ #v[0x6A09E667, 0xBB67AE85, 0x3C6EF372, 0xA54FF53A,
    UInt32.ofNat counter, UInt32.ofNat (counter / 0x100000000), UInt32.ofNat length, flags.word]
  let v := rounds 7 start block
  Vector.ofFn fun i : Fin 8 => v[i.val] ^^^ v[i.val + 8]

/-! ## Chunks and their tree -/

/-- A compression that has not run yet, because the root of the tree is flagged. -/
structure Node where
  chaining : Words 8
  block : Words 16
  counter : Nat
  length : Nat
  flags : Flags

/-- The chaining value that a node inside the tree passes on. -/
def Node.value (n : Node) : Words 8 := compress n.chaining n.block n.counter n.length n.flags

/-- The result of a node that is the root. -/
def Node.rootValue (n : Node) : Words 8 :=
  compress n.chaining n.block 0 n.length { n.flags with root := true }

/-- The words of a block; missing bytes count as zero. -/
def blockWords (bytes : List UInt8) : Words 16 :=
  Vector.ofFn fun i : Fin 16 =>
    UInt32.ofNat (Bytes.ofLittleEndian ((bytes.drop (4 * i.val)).take 4))

/-- Chains the blocks of a chunk, of which at most `more` follow the first one. -/
def blocks (counter : Nat) : (more : Nat) → Words 8 → (isFirst : Bool) → List UInt8 → Node
  | 0, cv, isFirst, bytes =>
    ⟨cv, blockWords bytes, counter, bytes.length, ⟨isFirst, true, false, false⟩⟩
  | more + 1, cv, isFirst, bytes =>
    if bytes.length ≤ 64 then
      ⟨cv, blockWords bytes, counter, bytes.length, ⟨isFirst, true, false, false⟩⟩
    else
      blocks counter more
        (compress cv (blockWords (bytes.take 64)) counter 64 ⟨isFirst, false, false, false⟩)
        false (bytes.drop 64)

/-- The last compression of a chunk. -/
def chunk (counter : Nat) (bytes : List UInt8) : Node := blocks counter 15 initial true bytes

/-- The node above two subtrees. -/
def parent (left right : Node) : Node :=
  ⟨initial, left.value ++ right.value, 0, 64, ⟨false, false, true, false⟩⟩

/-- The last compression of a tree with at most `2 ^ level` chunks. -/
def tree (counter : Nat) : (level : Nat) → List UInt8 → Node
  | 0, bytes => chunk counter bytes
  | level + 1, bytes =>
    let half := 1024 * Nat.pow 2 level
    if bytes.length ≤ half then tree counter level bytes
    else parent (tree counter level (bytes.take half))
      (tree (counter + Nat.pow 2 level) level (bytes.drop half))

/-- The hash of a list of bytes. -/
def hash (bytes : List UInt8) : Vector UInt8 32 :=
  let words := (tree 0 bytes.length.log2 bytes).rootValue
  Vector.ofFn fun i : Fin 32 => (words[i.val / 4] >>> UInt32.ofNat (8 * (i.val % 4))).toUInt8

end Delegation.Blake3
