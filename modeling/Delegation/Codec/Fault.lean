/-
# Faults of decoding

Why a document could not be read.  A reader stops at the first fault it meets.
-/

namespace Delegation

/-- The first fault that a reader met. -/
inductive Fault
  /-- The end of a record was reached without a required field. -/
  | missingField (name : String)
  /-- A field of a record came twice. -/
  | duplicateField (name : String)
  /-- The name of no case of a choice. -/
  | unknownVariant
  /-- A value of another type than the one expected. -/
  | invalidType
  /-- A row of fields or numbers ends too early. -/
  | invalidLength
  /-- A number out of range. -/
  | invalidValue
  /-- The input is not in the format at all. -/
  | malformed
  /-- The input ends inside a value. -/
  | endOfInput
  /-- Values are nested too deeply. -/
  | tooDeep
  /-- A well-formed item without a meaning at its place. -/
  | meaningless
deriving DecidableEq, Repr

/-- The text that reports a fault. -/
def Fault.message : Fault → String
  | missingField name => "missing field `" ++ name ++ "`"
  | duplicateField name => "duplicate field `" ++ name ++ "`"
  | unknownVariant => "unknown variant"
  | invalidType => "invalid type"
  | invalidLength => "invalid length"
  | invalidValue => "invalid value"
  | malformed => "syntax"
  | endOfInput => "eof"
  | tooDeep => "recursion"
  | meaningless => "semantic"

end Delegation
