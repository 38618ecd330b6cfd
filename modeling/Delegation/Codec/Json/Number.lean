/-
# Numbers in JSON

A reader of JSON tells natural numbers below `2 ^ 64` from negative integers down to
`-2 ^ 63` and from all other numbers, which it takes as binary64.  A number too large for
binary64 cannot be taken at all.

## Key constructions

* `Json.Number` — what a number is to a reader.
* `Json.Number.scan` — reads a number from the front of a text.
* `Json.overflows` — whether a decimal number exceeds the binary64 range.
-/

namespace Delegation.Json

/-- What a number is to a reader. -/
inductive Number
  | natural (n : Nat)
  | negative
  /-- A number that is taken as binary64. -/
  | real
  /-- A number beyond the binary64 range. -/
  | huge
deriving DecidableEq, Repr

/-! ## The binary64 range -/

/-- Rounds to 53 significant bits; a tie goes to the even neighbour. -/
def roundBits (n : Nat) : Nat :=
  if n < Nat.pow 2 53 then n
  else
    let unit := Nat.pow 2 (n.log2 - 52)
    let q := n / unit
    let r := n % unit
    (if unit < 2 * r ∨ 2 * r = unit ∧ q % 2 = 1 then q + 1 else q) * unit

/-- Appends digits to a number while it stays below `2 ^ 64`, and counts those that do not fit. -/
def gather : Nat → List Nat → Nat × Nat
  | n, [] => (n, 0)
  | n, d :: ds => if 10 * n + d < Nat.pow 2 64 then gather (10 * n + d) ds else (n, ds.length + 1)

/-- Whether `significand * 10 ^ exponent` exceeds the binary64 range.  Both factors are rounded
before they are multiplied, and powers beyond `10 ^ 308` are never formed. -/
def overflows (significand : Nat) (exponent : Int) : Bool :=
  significand ≠ 0 ∧ (308 < exponent ∨
    0 ≤ exponent ∧ Nat.pow 2 1024 - Nat.pow 2 970 ≤
      roundBits significand * roundBits (Nat.pow 10 exponent.toNat))

/-! ## Reading -/

/-- The value of a decimal digit. -/
def digit? (c : Char) : Option Nat := if c.isDigit then some (c.toNat - 48) else none

/-- The digits at the front of a text, and what follows them. -/
def digits : List Char → List Nat × List Char
  | [] => ([], [])
  | c :: cs =>
    match digit? c with
    | some d => let (ds, rest) := digits cs; (d :: ds, rest)
    | none => ([], c :: cs)

/-- The number that digits spell. -/
def ofDigits (ds : List Nat) : Nat := ds.foldl (fun n d => 10 * n + d) 0

namespace Number

/-- What a number is, given its sign, the digits on either side of the point and its exponent.
Without point and exponent it is an integer. -/
def ofParts (isNegative : Bool) (whole : List Nat) (fraction : Option (List Nat))
    (exponent : Option Int) : Number :=
  let n := ofDigits whole
  if fraction.isNone ∧ exponent.isNone ∧ n < Nat.pow 2 64 then
    if !isNegative then natural n else if 1 ≤ n ∧ n ≤ Nat.pow 2 63 then negative else real
  else
    let (significand, dropped) := gather 0 whole
    let decimals := fraction.getD []
    let (significand, unused) := gather significand decimals
    let scale : Int := dropped - (decimals.length - unused : Nat) + exponent.getD 0
    if overflows significand scale then huge else real

/-- Reads the point and the digits behind it, if there is a point. -/
def scanFraction : List Char → Option (Option (List Nat) × List Char)
  | '.' :: cs =>
    match digits cs with
    | ([], _) => none
    | (ds, rest) => some (some ds, rest)
  | cs => some (none, cs)

/-- Reads the digits of an exponent. -/
def scanPower (isNegative : Bool) (cs : List Char) : Option (Option Int × List Char) :=
  match digits cs with
  | ([], _) => none
  | (ds, rest) =>
    some (some (if isNegative then -(ofDigits ds : Int) else (ofDigits ds : Int)), rest)

/-- Reads an exponent, if there is one. -/
def scanExponent : List Char → Option (Option Int × List Char)
  | [] => some (none, [])
  | c :: cs =>
    if c = 'e' ∨ c = 'E' then
      match cs with
      | '+' :: cs => scanPower false cs
      | '-' :: cs => scanPower true cs
      | cs => scanPower false cs
    else some (none, c :: cs)

/-- Reads what follows the sign of a number.  A leading zero stands alone. -/
def scanUnsigned (isNegative : Bool) (cs : List Char) : Option (Number × List Char) :=
  match digits cs with
  | ([], _) | (0 :: _ :: _, _) => none
  | (whole, rest) => do
    let (fraction, rest) ← scanFraction rest
    let (exponent, rest) ← scanExponent rest
    return (ofParts isNegative whole fraction exponent, rest)

/-- Reads a number from the front of a text. -/
def scan : List Char → Option (Number × List Char)
  | '-' :: cs => scanUnsigned true cs
  | cs => scanUnsigned false cs

end Number

end Delegation.Json
