/-
# JSON as it is read

A text that should be JSON is read up to the first place where it is not JSON.  The reading
keeps this place as a part of the tree, so whoever walks the tree in the order of the text meets
the faults of the text and the faults of the values in the order in which they stand there.

## Key constructions

* `Json.Reading` — a value, with the end of each row closed or broken.
* `Json.Reading.intact` — whether there is no broken place.
* `Json.read` — reads a value from the front of a text.
-/
import Delegation.Codec.Fault
import Delegation.Codec.Json.Number
import Delegation.Codec.Json.Text

namespace Delegation.Json

mutual

/-- A value as far as it could be read. -/
inductive Reading
  | null
  | bool (b : Bool)
  | number (n : Number)
  /-- A text, or `none` if an escape spells half of a surrogate pair. -/
  | text (s : Option String)
  | array (items : Items)
  | object (members : Members)
  /-- What stands here is no value. -/
  | broken

/-- The items of an array. -/
inductive Items
  | closed
  | broken
  | item (value : Reading) (rest : Items)

/-- The members of an object. -/
inductive Members
  | closed
  /-- What stands here is no member, for instance because its name is no text. -/
  | broken
  | member (name : Option String) (value : Reading) (rest : Members)

end

mutual

/-- Whether the value was read without meeting a broken place. -/
def Reading.intact : Reading → Bool
  | .array items => items.intact
  | .object members => members.intact
  | .broken => false
  | _ => true

/-- Whether the items were read up to the closing bracket. -/
def Items.intact : Items → Bool
  | .closed => true
  | .broken => false
  | .item value rest => value.intact && rest.intact

/-- Whether the members were read up to the closing brace. -/
def Members.intact : Members → Bool
  | .closed => true
  | .broken => false
  | .member _ value rest => value.intact && rest.intact

end

/-- The items of an array with the given values. -/
def Items.ofList : List Reading → Items
  | [] => .closed
  | v :: vs => .item v (ofList vs)

/-- The members of an object with the given names and values. -/
def Members.ofList : List (String × Reading) → Members
  | [] => .closed
  | (name, v) :: rest => .member (some name) v (ofList rest)

/-! ## Reading a text -/

/-- Whether a character may stand between tokens. -/
def isBlank (c : Char) : Bool := c = ' ' || c = '\t' || c = '\n' || c = '\r'

/-- The text behind the blanks at its front. -/
def skipBlanks (cs : List Char) : List Char := cs.dropWhile isBlank

/-- The text behind a word, if the word stands at its front. -/
def afterWord? : (word : List Char) → List Char → Option (List Char)
  | [], cs => some cs
  | w :: ws, c :: cs => if w = c then afterWord? ws cs else none
  | _ :: _, [] => none

/-- Goes on behind a scanned token, or stops where there was none. -/
def orBroken {α : Type} (make : α → Reading) : Option (α × List Char) → Reading × List Char
  | some (a, rest) => (make a, rest)
  | none => (.broken, [])

/-- Reads a word that stands for a value. -/
def readWord (word : List Char) (value : Reading) (cs : List Char) : Reading × List Char :=
  match afterWord? word cs with
  | some rest => (value, rest)
  | none => (.broken, [])

mutual

/-- Reads a value; blanks may stand before it. -/
def readValue : (fuel : Nat) → List Char → Reading × List Char
  | 0, _ => (.broken, [])
  | fuel + 1, cs =>
    match skipBlanks cs with
    | [] => (.broken, [])
    | c :: cs =>
      if c = '[' then
        let (items, rest) := readItems fuel true cs
        (.array items, rest)
      else if c = '{' then
        let (members, rest) := readMembers fuel true cs
        (.object members, rest)
      else if c = '"' then orBroken .text (scanText cs)
      else if c = 'n' then readWord ['u', 'l', 'l'] .null cs
      else if c = 't' then readWord ['r', 'u', 'e'] (.bool true) cs
      else if c = 'f' then readWord ['a', 'l', 's', 'e'] (.bool false) cs
      else orBroken .number (Number.scan (c :: cs))

/-- Reads items.  Only the first place may hold the closing bracket instead of an item. -/
def readItems : (fuel : Nat) → (isFirst : Bool) → List Char → Items × List Char
  | 0, _, _ => (.broken, [])
  | fuel + 1, isFirst, cs =>
    match isFirst, skipBlanks cs with
    | true, ']' :: rest => (.closed, rest)
    | _, cs =>
      let (value, rest) := readValue fuel cs
      match skipBlanks rest with
      | ',' :: rest =>
        let (items, rest) := readItems fuel false rest
        (.item value items, rest)
      | ']' :: rest => (.item value .closed, rest)
      | _ => (.item value .broken, [])

/-- Reads members.  Only the first place may hold the closing brace instead of a name. -/
def readMembers : (fuel : Nat) → (isFirst : Bool) → List Char → Members × List Char
  | 0, _, _ => (.broken, [])
  | fuel + 1, isFirst, cs =>
    match isFirst, skipBlanks cs with
    | true, '}' :: rest => (.closed, rest)
    | _, '"' :: cs =>
      match scanText cs with
      | none => (.broken, [])
      | some (name, rest) =>
        match skipBlanks rest with
        | ':' :: rest =>
          let (value, rest) := readValue fuel rest
          match skipBlanks rest with
          | ',' :: rest =>
            let (members, rest) := readMembers fuel false rest
            (.member name value members, rest)
          | '}' :: rest => (.member name value .closed, rest)
          | _ => (.member name value .broken, [])
        | _ => (.member name .broken .broken, [])
    | _, _ => (.broken, [])

end

/-- Reads a value from the front of a text.  Each step that calls another one consumes a
character or is called by one that did, so twice the length is fuel enough. -/
def read (cs : List Char) : Reading × List Char := readValue (2 * cs.length + 2) cs

end Delegation.Json
