/-
# Texts in JSON

Quoted texts with escapes.  An escape may spell half of a surrogate pair.  A half without its
other half is well formed as far as quoting goes, but there is no text that it denotes.

## Key constructions

* `Json.quote` — writes a text between quotes.
* `Json.scanCodes` — reads a quoted text as code points and halves of surrogate pairs.
* `Json.pairHalves` — the text that such a row denotes.
* `Json.scanText` — both together.
-/
import Delegation.Hash.Bytes

namespace Delegation.Json

/-! ## Writing -/

/-- The escape of one character: quotes, backslashes and control characters are escaped. -/
def escape (c : Char) : List Char :=
  if c = '"' then ['\\', '"']
  else if c = '\\' then ['\\', '\\']
  else if c = '\x08' then ['\\', 'b']
  else if c = '\t' then ['\\', 't']
  else if c = '\n' then ['\\', 'n']
  else if c = '\x0c' then ['\\', 'f']
  else if c = '\r' then ['\\', 'r']
  else if c.toNat < 32 then
    ['\\', 'u', '0', '0', Bytes.hexDigit (c.toNat / 16), Bytes.hexDigit (c.toNat % 16)]
  else [c]

/-- A text between quotes. -/
def quote (s : String) : List Char := '"' :: s.toList.flatMap escape ++ ['"']

/-! ## Reading -/

/-- The character that a backslash in front of another character denotes. -/
def unescape? (c : Char) : Option Char :=
  if c = '"' ∨ c = '\\' ∨ c = '/' then some c
  else if c = 'b' then some '\x08'
  else if c = 'f' then some '\x0c'
  else if c = 'n' then some '\n'
  else if c = 'r' then some '\r'
  else if c = 't' then some '\t'
  else none

/-- The number that four hexadecimal digits spell. -/
def hexQuad? (a b c d : Char) : Option Nat := do
  return 4096 * (← Bytes.hexValue? a) + 256 * (← Bytes.hexValue? b) + 16 * (← Bytes.hexValue? c) +
    (← Bytes.hexValue? d)

/-- Reads up to the closing quote.  The codes are code points and, from escapes, halves of
surrogate pairs.  Control characters must be escaped. -/
def scanCodes : List Char → Option (List Nat × List Char)
  | [] => none
  | c :: cs =>
    if c = '"' then some ([], cs)
    else if c = '\\' then
      match cs with
      | 'u' :: a :: b :: c :: d :: cs => do
        let code ← hexQuad? a b c d
        let (codes, rest) ← scanCodes cs
        return (code :: codes, rest)
      | e :: cs => do
        let e ← unescape? e
        let (codes, rest) ← scanCodes cs
        return (e.toNat :: codes, rest)
      | [] => none
    else if c.toNat < 32 then none
    else do
      let (codes, rest) ← scanCodes cs
      return (c.toNat :: codes, rest)

/-- Whether a code is the first half of a surrogate pair. -/
def isHighHalf (n : Nat) : Bool := 0xD800 ≤ n && n < 0xDC00

/-- Whether a code is the second half of a surrogate pair. -/
def isLowHalf (n : Nat) : Bool := 0xDC00 ≤ n && n < 0xE000

/-- The characters that a row of codes denotes, if each half has its other half. -/
def pairHalves : List Nat → Option (List Char)
  | [] => some []
  | [n] => if isHighHalf n || isLowHalf n then none else some [Char.ofNat n]
  | n :: m :: rest =>
    if isHighHalf n then
      if isLowHalf m then
        (Char.ofNat (0x10000 + (n - 0xD800) * 0x400 + (m - 0xDC00)) :: ·) <$> pairHalves rest
      else none
    else if isLowHalf n then none
    else (Char.ofNat n :: ·) <$> pairHalves (m :: rest)

/-- Reads a text up to its closing quote.  The text is `none` if a half of a surrogate pair
stands alone. -/
def scanText (cs : List Char) : Option (Option String × List Char) := do
  let (codes, rest) ← scanCodes cs
  return ((pairHalves codes).map String.ofList, rest)

end Delegation.Json
