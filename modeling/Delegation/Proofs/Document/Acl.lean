/-
# Lists of grants and their documents

A document spells the modifier of a grant as two flags, and gives each grant a display name, which
is no part of the grant.  So two grants of a document may be one grant of the list that is made from
it: the list keeps one entry for each grant, under the name that stands last in the document.

## Key constructions

* `AclDocument.Canonical` — grants are in order, and no grant has both flags.

## Key results

* `AclDocument.toAcl_ofAcl`, `AclDocument.ofAcl_toAcl_iff` — a list is found again in its document,
  and a document in its list if it is canonical.
* `AclDocument.lists_and_documents_agree` — what becomes of any list and of any document.
-/
import Delegation.Document.Acl
import Delegation.Proofs.Document.Canonical

namespace Delegation

open Std

namespace GrantDocument

@[simp] theorem toEntry_ofEntry (e : AclEntry) : (ofEntry e).toEntry = e := by
  obtain ⟨⟨granteeType, granteeId, right, modifier⟩, granteeName⟩ := e
  simp [ofEntry, toEntry, Grant.isDeny, Grant.canDelegate]

/-- A grant is written again as it was unless it has both flags, of which only the denial counts. -/
theorem ofEntry_toEntry_iff {d : GrantDocument} :
    ofEntry d.toEntry = d ↔ ¬(d.denies ∧ d.delegates) := by
  obtain ⟨granteeType, id, name, right, denies, delegates⟩ := d
  cases denies <;> cases delegates <;>
    simp [ofEntry, toEntry, Modifier.ofFlags, Grant.isDeny, Grant.canDelegate]

end GrantDocument

namespace AclDocument

variable {d : AclDocument} {g : Grant}

/-- The grants are in strictly ascending order, and none of them has both flags. -/
def Canonical (d : AclDocument) : Prop :=
  AscendingBy (fun g => g.toEntry.grant) d.grants ∧ ∀ g ∈ d.grants, ¬(g.denies ∧ g.delegates)

instance (d : AclDocument) : Decidable d.Canonical := inferInstanceAs (Decidable (_ ∧ _))

theorem toAcl_ofAcl (acl : Acl) : (ofAcl acl).toAcl = acl :=
  Keyed.ofList_map_toList GrantDocument.toEntry_ofEntry acl

theorem ofAcl_toAcl_iff : ofAcl d.toAcl = d ↔ d.Canonical := by
  have hgrants : (ofAcl d.toAcl).grants = d.grants ↔ d.Canonical := by
    refine (Keyed.map_toList_ofList_iff GrantDocument.toEntry_ofEntry).trans ?_
    simp only [GrantDocument.ofEntry_toEntry_iff]
    rfl
  rw [← hgrants]
  constructor
  · exact congrArg AclDocument.grants
  · exact congrArg AclDocument.mk

/-- The list shows the grants that stand in the document. -/
theorem mem_grants_toAcl : g ∈ d.toAcl.grants ↔ ∃ x ∈ d.grants, x.toEntry.grant = g := by
  rw [toAcl, Keyed.mem_keys_ofList, List.map_map]
  exact List.mem_map

/-- No grant is shown twice. -/
theorem nodup_grants_toAcl : d.toAcl.grants.Nodup :=
  Keyed.nodup_of_ascending d.toAcl.pairwise_keys

/-- A grant is shown as it stands last in the document. -/
theorem get?_toAcl : d.toAcl.get? g =
    (d.grants.reverse.find? fun x => x.toEntry.grant = g).map GrantDocument.toEntry := by
  rw [toAcl, Keyed.get?_ofList, ← List.map_reverse, List.find?_map]
  rfl

/-- **Lists and their documents agree.**  A list is found again in its document, entry by entry.  A
document is found again in its list iff its grants are in strictly ascending order and none has both
flags.  Whatever the document, its list shows each of its grants once, under the name that stands
last with this grant; and a document that was converted once does not change any more. -/
theorem lists_and_documents_agree :
    (∀ acl : Acl, (ofAcl acl).toAcl = acl) ∧
      (∀ d : AclDocument, ofAcl d.toAcl = d ↔ d.Canonical) ∧
      (∀ d : AclDocument, d.toAcl.grants.Nodup ∧
        (∀ g, g ∈ d.toAcl.grants ↔ ∃ x ∈ d.grants, x.toEntry.grant = g) ∧
        ∀ g, d.toAcl.get? g =
          (d.grants.reverse.find? fun x => x.toEntry.grant = g).map GrantDocument.toEntry) ∧
      ∀ d : AclDocument, (ofAcl d.toAcl).toAcl = d.toAcl ∧
        ofAcl (ofAcl d.toAcl).toAcl = ofAcl d.toAcl := by
  refine ⟨toAcl_ofAcl, fun _ => ofAcl_toAcl_iff, fun d => ?_, fun d => ?_⟩
  · exact ⟨nodup_grants_toAcl, fun _ => mem_grants_toAcl, fun _ => get?_toAcl⟩
  · rw [toAcl_ofAcl]
    exact ⟨rfl, rfl⟩

/-- A denial that may be passed on is a denial, so these two grants are one, named by the second. -/
example : (AclDocument.toAcl ⟨[⟨.user, "u", "Ann", "r", true, false⟩,
    ⟨.user, "u", "Anna", "r", true, true⟩]⟩).toList =
      [⟨⟨.user, "u", "r", some .deny⟩, "Anna"⟩] := by decide

end AclDocument

end Delegation
