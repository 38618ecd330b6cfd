/-
# How entries are compared

Entries of access control lists are compared by their grants, column by column, and display names do
not count.  The comparison is a linear order on what it tells apart, entries that it does not tell
apart are the same entries, and these are the entries for which a hasher is fed the same.

## Key constructions

* `Grant.columns` — the columns of a grant, with texts as their bytes.

## Key results

* `Grant.precedes_iff_columns_lt` — grants are sorted by their columns.
* `AclEntry.compare_eq_eq_iff`, `AclEntry.hashInput_eq_iff` — entries compare as equal, and feed a
  hasher the same, iff they are the same entry.
* `AclEntry.comparison_is_lawful` — the laws of the comparison.
-/
import Delegation.Proofs.ByteOrder
import Delegation.Proofs.Collecting
import Mathlib.Data.Prod.Lex

namespace Delegation

open Std

/-! ## Columns of grants -/

namespace Grant

variable {a b : Grant}

/-- The columns by which grants are sorted, the one that decides first in front. -/
def columns (g : Grant) : ℕ ×ₗ List UInt8 ×ₗ List UInt8 ×ₗ ℕ :=
  toLex (g.granteeType.index, toLex (Utf8.encode g.granteeId,
    toLex (Utf8.encode g.right, Modifier.rank g.modifier)))

/-- Grants are sorted by their columns: the place of a type and the bytes of a text determine the
type and the text, and they are ordered alike. -/
theorem precedes_iff_columns_lt : a.Precedes b ↔ a.columns < b.columns := by
  have htype : a.granteeType.index = b.granteeType.index ↔ a.granteeType = b.granteeType :=
    ⟨GranteeType.index_injective, congrArg GranteeType.index⟩
  have htext {s t : String} : Utf8.encode s = Utf8.encode t ↔ s = t :=
    ⟨Utf8.encode_injective, congrArg Utf8.encode⟩
  unfold Precedes columns
  simp only [Prod.Lex.toLex_lt_toLex, Utf8.encode_lt_encode_iff, htype, htext]

end Grant

/-! ## Entries -/

namespace AclEntry

variable {a b : AclEntry}

/-- Entries compare as equal iff they show the same grant. -/
theorem compare_eq_eq_iff : compare a b = .eq ↔ a.sameGrant b = true := by
  rw [Acl.sameGrant_iff]
  show compare a.grant b.grant = .eq ↔ a.grant = b.grant
  exact LawfulEqCmp.compare_eq_iff_eq

/-- Entries are sorted by the columns of their grants. -/
theorem compare_eq_lt_iff : compare a b = .lt ↔ a.grant.columns < b.grant.columns := by
  rw [← Grant.precedes_iff_columns_lt]
  exact Grant.compare_eq_lt_iff

/-- Of two entries one is not above the other. -/
theorem isLE_total (a b : AclEntry) :
    (compare a b).isLE = true ∨ (compare b a).isLE = true := by
  by_cases hab : (compare a b).isLE = true
  · exact .inl hab
  · right
    have hba : compare b a = .lt := OrientedCmp.lt_of_not_isLE hab
    rw [hba]
    rfl

/-- A hasher is fed the same for two entries iff they show the same grant. -/
theorem hashInput_eq_iff : a.hashInput = b.hashInput ↔ a.sameGrant b = true := by
  rw [Acl.sameGrant_iff]
  exact ⟨Grant.hashInput_injective, congrArg Grant.hashInput⟩

/-- **The comparison of entries is lawful.**  It is reflexive, it turns around when the entries are
exchanged, and it is transitive and total.  Entries that are below each other, or that compare as
equal, are the same entry; that is, type, identifier, right and modifier of their grants agree,
whatever the display names.  An entry is below another iff its columns come first: the place of the
grantee type among all types, the bytes of the identifier, the bytes of the right, and the place of
the modifier, where none comes before a denial and a denial before leave to delegate.  The partial
order is the comparison, entries are compared as their grants are, and a hasher is fed the same for
two entries iff they are the same entry. -/
theorem comparison_is_lawful (a b c : AclEntry) :
    compare a a = .eq ∧
    compare b a = (compare a b).swap ∧
    ((compare a b).isLE = true → (compare b c).isLE = true → (compare a c).isLE = true) ∧
    ((compare a b).isLE = true ∨ (compare b a).isLE = true) ∧
    ((compare a b).isLE = true → (compare b a).isLE = true → a.sameGrant b = true) ∧
    (compare a b = .eq ↔ a.sameGrant b = true) ∧
    (a.sameGrant b = true ↔ a.grant.granteeType = b.grant.granteeType ∧
      a.grant.granteeId = b.grant.granteeId ∧ a.grant.right = b.grant.right ∧
      a.grant.modifier = b.grant.modifier) ∧
    (compare a b = .lt ↔ a.grant.columns < b.grant.columns) ∧
    a.partialOrder b = some (compare a b) ∧
    compare a b = compare a.grant b.grant ∧
    (a.hashInput = b.hashInput ↔ a.sameGrant b = true) := by
  have hantisymm (hab : (compare a b).isLE = true) (hba : (compare b a).isLE = true) :
      a.sameGrant b = true :=
    compare_eq_eq_iff.mp (OrientedCmp.isLE_antisymm hab hba)
  have hparts : a.sameGrant b = true ↔ a.grant.granteeType = b.grant.granteeType ∧
      a.grant.granteeId = b.grant.granteeId ∧ a.grant.right = b.grant.right ∧
      a.grant.modifier = b.grant.modifier := by
    rw [Acl.sameGrant_iff, Grant.ext_iff]
  exact ⟨ReflCmp.compare_self, OrientedCmp.eq_swap, TransCmp.isLE_trans, isLE_total a b, hantisymm,
    compare_eq_eq_iff, hparts, compare_eq_lt_iff, rfl, rfl, hashInput_eq_iff⟩

/-- A character outside the basic plane comes behind every character of that plane, as its bytes do,
and a denial comes behind the plain grant.  Names do not count. -/
theorem wide_characters_come_last :
    let plain (id name : String) : AclEntry := ⟨⟨.user, id, "r", none⟩, name⟩
    let a := plain "\uffff" "Zoe"
    let b := plain "😀" "Ann"
    let c : AclEntry := ⟨⟨.user, "😀", "r", some .deny⟩, "Ann"⟩
    (compare a b).isLE = true ∧ (compare b c).isLE = true ∧ (compare a c).isLE = true ∧
      a.grant.columns < b.grant.columns ∧ b.hashInput = (plain "😀" "Bob").hashInput := by
  intro plain a b c
  have hab : compare a b = .lt := by decide
  have hbc : compare b c = .lt := by decide
  obtain ⟨-, -, htrans, -, -, -, -, hcolumns, -⟩ := comparison_is_lawful a b c
  obtain ⟨-, -, -, -, -, -, -, -, -, -, hhash⟩ := comparison_is_lawful b (plain "😀" "Bob") c
  have hab' : (compare a b).isLE = true := by rw [hab]; rfl
  have hbc' : (compare b c).isLE = true := by rw [hbc]; rfl
  exact ⟨hab', hbc', htrans hab' hbc', hcolumns.mp hab, hhash.mpr (by decide)⟩

end AclEntry

end Delegation
