/-
# Codes in documents

The layouts of target types, grantee types, ways of addressing and modifiers: each is the text
of its code.
-/
import Delegation.Codec.Schema
import Delegation.Grant

namespace Delegation

namespace TargetType

/-- A target type is its code. -/
def schema : Schema TargetType := .code all code ofCode?_code

end TargetType

namespace GranteeType

/-- A grantee type is its code. -/
def schema : Schema GranteeType := .code all code ofCode?_code

end GranteeType

namespace Addressing

/-- A way of addressing is its code. -/
def schema : Schema Addressing := .code all code ofCode?_code

end Addressing

namespace Modifier

theorem find?_code (m : Modifier) : all.find? (fun a => a.code = m.code) = some m := by
  cases m <;> decide

/-- A modifier is its marker. -/
def schema : Schema Modifier := .code all code find?_code

end Modifier

end Delegation
