/-
# Snapshots and their documents

The document of a snapshot lists what the snapshot holds, and a snapshot is built from a document
step by step.  A snapshot is always found again.  A document is found again if it is canonical: what
it lists stands in order, on each level.

## Key constructions

* `AttrsDocument.toAttrs` — the rights over attributes that a document lists.
* `RightsDocument.Canonical` — every list in the document is in order and free of repetitions.

## Key results

* `RightsDocument.toSnapshot_eq` — the steps of a document fill each part on its own.
* `RightsDocument.snapshots_and_documents_agree` — snapshots are found again, canonical documents
  are those that are, and every document is after one conversion.
-/
import Delegation.Document.Rights
import Delegation.Proofs.Document.Canonical
import Delegation.Proofs.Steps

namespace Delegation

open Std

/-! ## Attributes -/

namespace ConstraintDocument

/-- The values are in order. -/
def Canonical (d : ConstraintDocument) : Prop := AscendingBy id d.values

instance (d : ConstraintDocument) : Decidable d.Canonical :=
  inferInstanceAs (Decidable (AscendingBy _ _))

@[simp] theorem toConstraint_ofConstraint (c : AttrConstraint) :
    (ofConstraint c).toConstraint = c := by
  simp [ofConstraint, toConstraint]

theorem ofConstraint_toConstraint_iff {d : ConstraintDocument} :
    ofConstraint d.toConstraint = d ↔ d.Canonical := by
  obtain ⟨min, max, values⟩ := d
  simp [ofConstraint, toConstraint, Canonical, Keyed.toList_ofList_iff]

end ConstraintDocument

namespace AttrDocument

/-- The defaults are in order, and so is the constraint. -/
def Canonical (d : AttrDocument) : Prop :=
  AscendingBy id d.defaults ∧ ∀ c ∈ d.constraint, c.Canonical

instance (d : AttrDocument) : Decidable d.Canonical := inferInstanceAs (Decidable (_ ∧ _))

@[simp] theorem toAttr_ofAttr (a : EffectiveAttr) : (ofAttr a).toAttr = a := by
  obtain ⟨name, defaults, constraint⟩ := a
  cases constraint <;> simp [ofAttr, toAttr]

theorem ofAttr_toAttr_iff {d : AttrDocument} : ofAttr d.toAttr = d ↔ d.Canonical := by
  obtain ⟨name, constraint, defaults⟩ := d
  cases constraint with
  | none => simp [ofAttr, toAttr, Canonical, Keyed.toList_ofList_iff]
  | some c =>
    simp [ofAttr, toAttr, Canonical, Keyed.toList_ofList_iff,
      ConstraintDocument.ofConstraint_toConstraint_iff, and_comm]

end AttrDocument

namespace AttrsDocument

/-- The rights over attributes that the document lists; of attributes with one name the last one is
kept. -/
def toAttrs (d : AttrsDocument) : AttrRights :=
  ⟨d.all, .ofList EffectiveAttr.name (d.listed.map AttrDocument.toAttr)⟩

theorem steps_eq (d : AttrsDocument) (every : SnapshotStep)
    (list : EffectiveAttr → SnapshotStep) :
    d.steps every list =
      (if d.all then [every] else []) ++ (d.listed.map AttrDocument.toAttr).map list := by
  rw [List.map_map]
  rfl

/-- The attributes are in the order of their names, and each is canonical. -/
def Canonical (d : AttrsDocument) : Prop :=
  AscendingBy AttrDocument.name d.listed ∧ ∀ a ∈ d.listed, a.Canonical

instance (d : AttrsDocument) : Decidable d.Canonical := inferInstanceAs (Decidable (_ ∧ _))

@[simp] theorem toAttrs_ofAttrs (a : AttrRights) : (ofAttrs a).toAttrs = a :=
  congrArg (AttrRights.mk a.every) (Keyed.ofList_map_toList AttrDocument.toAttr_ofAttr a.listed)

theorem ofAttrs_toAttrs_iff {d : AttrsDocument} : ofAttrs d.toAttrs = d ↔ d.Canonical := by
  have hlisted : (ofAttrs d.toAttrs).listed = d.listed ↔ d.Canonical := by
    refine (Keyed.map_toList_ofList_iff AttrDocument.toAttr_ofAttr).trans ?_
    simp only [AttrDocument.ofAttr_toAttr_iff]
    rfl
  rw [← hlisted]
  constructor
  · exact congrArg AttrsDocument.listed
  · intro h
    exact congrArg (AttrsDocument.mk d.all) h

end AttrsDocument

/-! ## Whole documents -/

namespace RightsDocument

/-- Every list in the document is in strictly ascending order, attributes by their names. -/
def Canonical (d : RightsDocument) : Prop :=
  AscendingBy id d.target.presets ∧ d.target.setAttrs.Canonical ∧ d.target.getAttrs.Canonical

instance (d : RightsDocument) : Decidable d.Canonical := inferInstanceAs (Decidable (_ ∧ _ ∧ _))

/-- The steps of a document fill each part of a snapshot on its own. -/
theorem toSnapshot_eq (d : RightsDocument) :
    d.toSnapshot = ⟨d.target.type, d.target.id, d.target.name, d.grantee.id, d.grantee.name,
      .ofList d.target.presets, d.target.setAttrs.toAttrs, d.target.getAttrs.toAttrs⟩ := by
  simp only [toSnapshot, steps, AttrsDocument.steps_eq, Snapshot.build_append]
  exact Snapshot.build_start ..

theorem toSnapshot_ofSnapshot (s : Snapshot) : (ofSnapshot s).toSnapshot = s := by
  simp [toSnapshot_eq, ofSnapshot]

theorem ofSnapshot_toSnapshot_iff {d : RightsDocument} :
    ofSnapshot d.toSnapshot = d ↔ d.Canonical := by
  obtain ⟨⟨granteeId, granteeName⟩, ⟨type, id, name, presets, setAttrs, getAttrs⟩⟩ := d
  simp [toSnapshot_eq, ofSnapshot, Canonical, Keyed.toList_ofList_iff,
    AttrsDocument.ofAttrs_toAttrs_iff]

/-- **Snapshots and their documents agree.**  A snapshot is found again in its document, in every
part.  A document is found again in its snapshot iff all its lists are in strictly ascending order.
A document that was converted once does not change any more. -/
theorem snapshots_and_documents_agree :
    (∀ s : Snapshot, (ofSnapshot s).toSnapshot = s) ∧
      (∀ d : RightsDocument, ofSnapshot d.toSnapshot = d ↔ d.Canonical) ∧
      ∀ d : RightsDocument,
        ofSnapshot (ofSnapshot d.toSnapshot).toSnapshot = ofSnapshot d.toSnapshot := by
  refine ⟨toSnapshot_ofSnapshot, fun _ => ofSnapshot_toSnapshot_iff, fun d => ?_⟩
  rw [toSnapshot_ofSnapshot]

end RightsDocument

end Delegation
