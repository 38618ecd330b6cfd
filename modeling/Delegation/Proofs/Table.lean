/-
# What the table holds

The table keeps the grants of a ledger as rows of text.  A row spells its grant and its target in
full, so grants that were written are read back, different grants have different rows, and every
operation of the ledger is the same operation on the rows.

## Key constructions

* `StoredGrant.row`, `Ledger.toTable` — the rows of the grants of a ledger.

## Key results

* `GrantRow.toGrant_ofGrant`, `GrantRow.isOn_ofGrant` — what a row tells about its grant.
* `GrantRow.eq_of_ofGrant_eq` — a row determines its target and its grant.
* `Ledger.toTable_add`, `Ledger.toTable_remove` — each operation does to the rows what it does to
  the grants.
* `Ledger.toTable_on` — the rows list the grants of the ledger, in an order of their own.
-/
import Delegation.Proofs.Ledger
import Delegation.Store.Table
import Mathlib.Data.List.Basic

namespace Delegation

open Std

/-! ## Rows -/

namespace GrantRow

variable {k k' : TargetKey} {g g' : Grant}

@[simp] theorem readGranteeType_code (type : GranteeType) :
    readGranteeType type.code = .ok type := by
  unfold readGranteeType GranteeType.parse
  rw [GranteeType.ofCode?_code]

/-- A grant without modifier has an empty column, which is no modifier. -/
@[simp] theorem readModifier_column (m : Option Modifier) :
    readModifier ((m.map Modifier.code).getD "") = .ok m := by
  rcases m with _ | _ | _ <;> rfl

/-- A grant that was written is read back. -/
@[simp] theorem toGrant_ofGrant (k : TargetKey) (g : Grant) : (ofGrant k g).toGrant = .ok g := by
  unfold toGrant ofGrant
  rw [readGranteeType_code, readModifier_column]
  rfl

/-- A row belongs to the target of its grant alone. -/
@[simp] theorem isOn_ofGrant : (ofGrant k g).isOn k' = true ↔ k = k' := by
  unfold isOn ofGrant
  rw [decide_eq_true_eq]
  constructor
  · rintro ⟨htype, hkey⟩
    cases k
    cases k'
    rw [TargetKey.mk.injEq]
    exact ⟨TargetType.code_injective htype, hkey⟩
  · rintro rfl
    exact ⟨rfl, rfl⟩

/-- A row determines its target and its grant. -/
theorem eq_of_ofGrant_eq (h : ofGrant k g = ofGrant k' g') : k = k' ∧ g = g' := by
  have htarget : (ofGrant k g).isOn k' = true := by
    rw [h, isOn_ofGrant]
  have hgrant := congrArg toGrant h
  rw [toGrant_ofGrant, toGrant_ofGrant] at hgrant
  exact ⟨isOn_ofGrant.mp htarget, Except.ok.inj hgrant⟩

/-- Rows that were written are read back, one by one. -/
theorem mapM_toGrant {rows : List GrantRow} (h : ∀ r ∈ rows, ∃ g, r = ofGrant k g) :
    ∃ gs, rows.mapM toGrant = .ok gs ∧ gs.map (ofGrant k) = rows := by
  induction rows with
  | nil => exact ⟨[], rfl, rfl⟩
  | cons r rows ih =>
    obtain ⟨g, rfl⟩ := h r List.mem_cons_self
    obtain ⟨gs, hread, hrows⟩ := ih fun r hr => h r (List.mem_cons_of_mem _ hr)
    refine ⟨g :: gs, ?_, ?_⟩
    · rw [List.mapM_cons, toGrant_ofGrant, hread]
      rfl
    · rw [List.map_cons, hrows]

end GrantRow

/-- The row of a stored grant. -/
def StoredGrant.row (s : StoredGrant) : GrantRow := .ofGrant s.target s.grant

/-- Different stored grants have different rows. -/
theorem StoredGrant.row_injective : Function.Injective row := by
  rintro ⟨k, g⟩ ⟨k', g'⟩ h
  obtain ⟨rfl, rfl⟩ := GrantRow.eq_of_ofGrant_eq h
  rfl

/-! ## The table of a ledger -/

namespace Ledger

variable {l : Ledger} {k : TargetKey} {g : Grant} {r : GrantRow}

/-- A row for each grant. -/
def toTable (l : Ledger) : GrantTable := .ofList id (l.toList.map StoredGrant.row)

@[simp] theorem toTable_empty : toTable Keyed.empty = Keyed.empty := rfl

theorem mem_toTable : r ∈ l.toTable.toList ↔ r ∈ l.toList.map StoredGrant.row := by
  rw [← Keyed.keys_id, toTable, Keyed.mem_keys_ofList, List.map_id]

/-- The table has the row of a grant iff the ledger has the grant. -/
theorem ofGrant_mem_toTable : GrantRow.ofGrant k g ∈ l.toTable.toList ↔ ⟨k, g⟩ ∈ l.toList := by
  rw [mem_toTable]
  exact List.mem_map_of_injective StoredGrant.row_injective (a := ⟨k, g⟩)

theorem contains_toTable (l : Ledger) (k : TargetKey) (g : Grant) :
    l.toTable.contains (.ofGrant k g) = l.contains ⟨k, g⟩ := by
  rw [Bool.eq_iff_iff, Keyed.contains_iff, Keyed.contains_iff, Keyed.keys_id, Keyed.keys_id,
    ofGrant_mem_toTable]

/-! ## Operations on rows -/

theorem toTable_insert (l : Ledger) (k : TargetKey) (g : Grant) :
    l.toTable.insert (.ofGrant k g) = toTable (l.insert ⟨k, g⟩) := by
  refine Keyed.ext_mem fun r => ?_
  rw [Keyed.mem_insert, mem_toTable, mem_toTable, List.mem_map, List.mem_map]
  constructor
  · rintro (rfl | ⟨⟨s, hs, rfl⟩, hne⟩)
    · exact ⟨⟨k, g⟩, Keyed.mem_insert.mpr (.inl rfl), rfl⟩
    · exact ⟨s, Keyed.mem_insert.mpr (.inr ⟨hs, fun he => hne (congrArg StoredGrant.row he)⟩), rfl⟩
  · rintro ⟨s, hs, rfl⟩
    rcases Keyed.mem_insert.mp hs with rfl | ⟨hs, hne⟩
    · exact .inl rfl
    · exact .inr ⟨⟨s, hs, rfl⟩, fun he => hne (StoredGrant.row_injective he)⟩

theorem toTable_erase (l : Ledger) (k : TargetKey) (g : Grant) :
    l.toTable.erase (.ofGrant k g) = toTable (l.erase ⟨k, g⟩) := by
  refine Keyed.ext_mem fun r => ?_
  rw [Keyed.mem_erase, mem_toTable, mem_toTable, List.mem_map, List.mem_map]
  constructor
  · rintro ⟨⟨s, hs, rfl⟩, hne⟩
    exact ⟨s, Keyed.mem_erase.mpr ⟨hs, fun he => hne (congrArg StoredGrant.row he)⟩, rfl⟩
  · rintro ⟨s, hs, rfl⟩
    obtain ⟨hs, hne⟩ := Keyed.mem_erase.mp hs
    exact ⟨⟨s, hs, rfl⟩, fun he => hne (StoredGrant.row_injective he)⟩

theorem toTable_add (l : Ledger) (k : TargetKey) (gs : List Grant) :
    l.toTable.add k gs = (l.add k gs).toTable := by
  induction gs generalizing l with
  | nil => rfl
  | cons g gs ih =>
    show GrantTable.add (l.toTable.insert (.ofGrant k g)) k gs = _
    rw [toTable_insert]
    exact ih (l.insert ⟨k, g⟩)

theorem toTable_remove (l : Ledger) (k : TargetKey) (gs : List Grant) :
    l.toTable.remove k gs = ((l.remove k gs).1, (l.remove k gs).2.toTable) := by
  induction gs generalizing l with
  | nil => rfl
  | cons g gs ih =>
    unfold GrantTable.remove Ledger.remove
    rw [contains_toTable]
    split
    · rw [toTable_erase, ih]
    · exact ih l

/-! ## Listings -/

/-- The rows on a target list the grants of the ledger, in the order of their texts. -/
theorem toTable_on (l : Ledger) (k : TargetKey) :
    ∃ gs, l.toTable.on k = .ok gs ∧ gs.Perm (l.on k) ∧
      gs.Pairwise fun a b => compare (GrantRow.ofGrant k a) (GrantRow.ofGrant k b) = .lt := by
  -- Every row of the table was written for a grant, so none of them is unreadable.
  have hrows : ∀ r ∈ l.toTable.toList.filter (·.isOn k), ∃ g, r = .ofGrant k g := by
    intro r hr
    obtain ⟨hr, hon⟩ := List.mem_filter.mp hr
    obtain ⟨⟨k', g⟩, -, rfl⟩ := List.mem_map.mp (mem_toTable.mp hr)
    exact ⟨g, congrArg (GrantRow.ofGrant · g) (GrantRow.isOn_ofGrant.mp hon)⟩
  obtain ⟨gs, hread, hgs⟩ := GrantRow.mapM_toGrant hrows
  have hascending :
      gs.Pairwise fun a b => compare (GrantRow.ofGrant k a) (GrantRow.ofGrant k b) = .lt := by
    rw [← List.pairwise_map (f := GrantRow.ofGrant k) (R := fun r r' => compare r r' = .lt), hgs,
      List.pairwise_filter]
    exact l.toTable.ascending.imp fun hab _ _ => hab
  have hnodup : gs.Nodup := Keyed.nodup_of_ascending hascending
  have hmem (g : Grant) : g ∈ gs ↔ g ∈ l.on k := by
    have hinjective : Function.Injective (GrantRow.ofGrant k) := fun _ _ h =>
      (GrantRow.eq_of_ofGrant_eq h).2
    rw [← List.mem_map_of_injective hinjective, hgs, List.mem_filter, ofGrant_mem_toTable, mem_on]
    exact and_iff_left (GrantRow.isOn_ofGrant.mpr rfl)
  exact ⟨gs, hread, (List.perm_ext_iff_of_nodup hnodup (l.nodup_on k)).mpr hmem, hascending⟩

end Ledger

end Delegation
