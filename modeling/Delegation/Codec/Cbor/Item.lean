/-
# Items of CBOR

The parts of a reader that do not depend on a schema: texts and byte strings in one piece or in
segments, rows of items, nesting, and passing over items that nobody wants.

## Key constructions

* `Cbor.readText`, `Cbor.readBytes` — texts and byte strings behind their head.
* `Cbor.rows` — repeats a reader for a definite or indefinite length.
* `Cbor.nested` — enters a level of nesting.
* `Cbor.skip` — passes over an item.
-/
import Delegation.Codec.Cbor.Head

namespace Delegation.Cbor

/-! ## Texts and byte strings -/

/-- A reader holds this many bytes at a time. -/
def window : Nat := 4096

/-- The length of the longest well-formed UTF-8 in front of at most `window` bytes, found by
dropping up to three bytes at the end, which may belong to a character that goes on. -/
def wholeCharacters? (bytes : List UInt8) : Option Nat :=
  [0, 1, 2, 3].findSome? fun cut =>
    let n := bytes.length - cut
    if (Utf8.decode? (bytes.take n)).isSome then some n else none

/-- Whether bytes that end too early are found not to be UTF-8 before their end is noticed: a
window that is full is checked before the next one is filled. -/
def faultBeforeEnd : (fuel : Nat) → List UInt8 → Bool
  | 0, _ => false
  | fuel + 1, bytes =>
    if bytes.length < window then false
    else match wholeCharacters? (bytes.take window) with
      | some n => faultBeforeEnd fuel (bytes.drop n)
      | none => true

/-- Reads a text of `n` bytes in one piece. -/
def takeText (n : Nat) : Reader String := do
  let input ← get
  if n ≤ input.length then
    let bytes ← take n
    match Utf8.decode? bytes with
    | some s => return s
    | none => throw .malformed
  else if faultBeforeEnd input.length input then throw .malformed
  else throw .endOfInput

/-- The length in a head of the kind wanted. -/
abbrev Wanted : Type := Head → Option (Option Nat)

/-- The length of a text. -/
def textLength : Wanted
  | .text length => some length
  | _ => none

/-- The length of a byte string. -/
def bytesLength : Wanted
  | .bytes length => some length
  | _ => none

/-- Reads segments up to the break that closes the outermost of `depth` rows of segments.  A
segment may be a row of segments itself. -/
def segments {α : Type} (wanted : Wanted) (piece : Nat → Reader α) :
    (fuel depth : Nat) → Reader (List α)
  | 0, _ => throw .endOfInput
  | fuel + 1, depth => do
    let head ← pull
    match head, depth with
    | .stop, 0 | .stop, 1 => return []
    | .stop, depth + 1 => segments wanted piece fuel depth
    | head, depth =>
      match wanted head with
      | none => throw .malformed
      | some none => segments wanted piece fuel (depth + 1)
      | some (some n) => do
        let a ← piece n
        let as ← segments wanted piece fuel depth
        return a :: as

/-- Reads what follows a head: one piece, or segments up to a break. -/
def pieces {α : Type} (wanted : Wanted) (piece : Nat → Reader α) : Option Nat → Reader (List α)
  | some n => return [← piece n]
  | none => do segments wanted piece ((← get).length + 1) 1

/-- Reads the text behind a head. -/
def readText (length : Option Nat) : Reader String := do
  return String.join (← pieces textLength takeText length)

/-- Reads the byte string behind a head. -/
def readBytes (length : Option Nat) : Reader (List UInt8) := do
  return (← pieces bytesLength take length).flatten

/-! ## Rows and nesting -/

/-- Repeats a step for the given number of items, or until a break. -/
def repeated {σ : Type} (step : σ → Reader σ) : (fuel : Nat) → Option Nat → σ → Reader σ
  | _, some 0, s => return s
  | 0, _, _ => throw .endOfInput
  | fuel + 1, some (n + 1), s => do repeated step fuel (some n) (← step s)
  | fuel + 1, none, s => do
    match ← peek with
    | .stop => do
      let _ ← pull
      return s
    | _ => repeated step fuel none (← step s)

/-- Repeats a step that consumes input, for the given number of items or until a break. -/
def rows {σ : Type} (step : σ → Reader σ) (length : Option Nat) (s : σ) : Reader σ := do
  repeated step ((← get).length + 1) length s

/-- Enters a level of nesting, if one is left. -/
def nested {α : Type} (read : Nat → Reader α) : (levels : Nat) → Reader α
  | 0 => throw .tooDeep
  | levels + 1 => read levels

/-- The number of levels that a document may use. -/
def maxLevels : Nat := 256

/-! ## Passing over items -/

/-- The simple values that have a meaning: false, true, null and undefined. -/
def isKnownSimple (n : Nat) : Bool := 20 ≤ n && n ≤ 23

/-- Passes over a large integer behind its tag, if that is what follows.  The next head is looked
at whatever the tag is.  A negative integer must fit into 128 bits with its sign. -/
def skipLargeInteger (tag : Nat) : Reader Bool := do
  match ← peek with
  | .bytes (some n) =>
    if (tag = 2 ∨ tag = 3) ∧ n ≤ 16 then
      let _ ← pull
      let bytes ← take n
      if tag = 3 ∧ Nat.pow 2 127 ≤ Bytes.ofBigEndian bytes then throw .meaningless
      return true
    else return false
  | _ => return false

/-- Passes over an item, given how to pass over the items inside it; there is no way to do so
when no level of nesting is left. -/
def skipItem (inside : Option (Reader Unit)) : Reader Unit := do
  let enter : Reader (Reader Unit) :=
    match inside with
    | some read => return read
    | none => throw .tooDeep
  match ← pull with
  | .positive _ | .negative _ | .float => return ()
  | .bytes length => do
    let _ ← readBytes length
  | .text length => do
    let _ ← readText length
  | .array length => do
    let read ← enter
    rows (fun _ => read) length ()
  | .map length => do
    let read ← enter
    rows (fun _ => do read; read) length ()
  | .tag n => do
    if ← skipLargeInteger n then return ()
    else
      let read ← enter
      read
  | .simple n => if isKnownSimple n then return () else throw .invalidType
  | .stop => throw .invalidType

/-- Passes over an item that nobody wants. -/
def skip : (levels : Nat) → Reader Unit
  | 0 => skipItem none
  | levels + 1 => skipItem (some (skip levels))

end Delegation.Cbor
