/-
# What the ledger lists

The ledger is a set of pairs of a target and a grant.  Seen from outside it is a map from targets
to sets of grants, and the operations of the engine add or remove one grant on one target.

## Key results

* `Ledger.mem_on`, `Ledger.pairwise_on` — what is listed on a target, and in which order.
* `Ledger.mem_on_add`, `Ledger.mem_on_erase` — what one grant more or less changes.
* `Ledger.remove_of_mem`, `Ledger.remove_of_notMem`, `Ledger.fst_remove` — what a removal returns.
* `Ledger.ext_on` — a ledger is determined by its listings.
-/
import Delegation.Store.Ledger

namespace Delegation.Ledger

open Std

variable {l l' : Ledger} {k k' : TargetKey} {g g' : Grant}

/-! ## Listings -/

@[simp] theorem mem_on : g ∈ l.on k ↔ ⟨k, g⟩ ∈ l.toList := by
  unfold on
  rw [List.mem_map]
  constructor
  · rintro ⟨⟨k', g'⟩, hs, rfl⟩
    rw [List.mem_filter, decide_eq_true_eq] at hs
    obtain ⟨hs, rfl⟩ := hs
    exact hs
  · intro h
    exact ⟨⟨k, g⟩, List.mem_filter.mpr ⟨h, by simp⟩, rfl⟩

@[simp] theorem on_empty (k : TargetKey) : on (Keyed.empty : Ledger) k = [] := rfl

/-- A listing is in the order of grants, and lists each grant once. -/
theorem pairwise_on (l : Ledger) (k : TargetKey) :
    (l.on k).Pairwise fun a b => compare a b = .lt := by
  unfold on
  rw [List.pairwise_map, List.pairwise_filter]
  refine l.ascending.imp fun {a b} hab ha hb => ?_
  rw [decide_eq_true_eq] at ha hb
  -- Of two grants on one target, the order of stored grants compares the grants.
  have ht : compareOn StoredGrant.target a b = .eq := by
    unfold compareOn
    rw [ha, hb]
    exact ReflCmp.compare_self
  have hlex : (compareOn StoredGrant.target a b).then (compareOn StoredGrant.grant a b) = .lt := hab
  rw [ht] at hlex
  exact hlex

theorem nodup_on (l : Ledger) (k : TargetKey) : (l.on k).Nodup :=
  Keyed.nodup_of_ascending (l.pairwise_on k)

/-- A ledger is determined by what it lists on each target. -/
theorem ext_on (h : ∀ k g, g ∈ l.on k ↔ g ∈ l'.on k) : l = l' :=
  Keyed.ext_mem fun ⟨k, g⟩ => by
    rw [← mem_on, h, mem_on]

theorem contains_iff : l.contains ⟨k, g⟩ ↔ g ∈ l.on k := by
  rw [mem_on, Keyed.contains_iff, Keyed.keys_id]

/-! ## One grant more -/

theorem mem_on_add : g' ∈ (l.add k [g]).on k' ↔ g' ∈ l.on k' ∨ k' = k ∧ g' = g := by
  change g' ∈ on (Keyed.insert l ⟨k, g⟩) k' ↔ _
  rw [mem_on, mem_on, Keyed.mem_insert]
  by_cases h : (⟨k', g'⟩ : StoredGrant) = ⟨k, g⟩
  · obtain ⟨rfl, rfl⟩ := StoredGrant.mk.inj h
    simp
  · have hne : ¬ (k' = k ∧ g' = g) := fun he => h (by rw [he.1, he.2])
    simp [h, hne]

/-- A grant that is there already is not added again. -/
theorem add_of_mem (h : g ∈ l.on k) : l.add k [g] = l :=
  ext_on fun k' g' => by
    rw [mem_on_add]
    constructor
    · rintro (hl | ⟨rfl, rfl⟩)
      · exact hl
      · exact h
    · exact Or.inl

/-! ## One grant less -/

theorem mem_on_erase :
    g' ∈ on (l.erase ⟨k, g⟩) k' ↔ g' ∈ l.on k' ∧ ¬ (k' = k ∧ g' = g) := by
  rw [mem_on, mem_on, Keyed.mem_erase]
  exact and_congr_right fun _ => not_congr (iff_of_eq (StoredGrant.mk.injEq ..))

theorem remove_of_mem (h : g ∈ l.on k) : l.remove k [g] = ([g], l.erase ⟨k, g⟩) := by
  simp [remove, contains_iff.mpr h]

theorem remove_of_notMem (h : g ∉ l.on k) : l.remove k [g] = ([], l) := by
  have hc : ¬ l.contains ⟨k, g⟩ := fun hc => h (contains_iff.mp hc)
  simp [remove, hc]

/-- A removal returns each of the grants that were there once, in the order of the request. -/
theorem fst_remove (l : Ledger) (k : TargetKey) (gs : List Grant) :
    (l.remove k gs).1 = (gs.filter (· ∈ l.on k)).eraseDups := by
  induction gs generalizing l with
  | nil => rfl
  | cons g gs ih =>
    unfold remove
    by_cases hg : g ∈ l.on k
    · -- A grant that is asked for again is gone by then.
      have hrest : gs.filter (· ∈ on (l.erase ⟨k, g⟩) k) =
          (gs.filter (· ∈ l.on k)).filter fun g' => !g' == g := by
        rw [List.filter_filter]
        refine List.filter_congr fun g' _ => ?_
        rw [Bool.eq_iff_iff, Bool.and_eq_true, decide_eq_true_eq, decide_eq_true_eq, mem_on_erase,
          and_comm]
        simp
      rw [if_pos (contains_iff.mpr hg), List.filter_cons_of_pos (by simpa using hg),
        List.eraseDups_cons, ← hrest, ← ih]
    · rw [if_neg (mt contains_iff.mp hg), List.filter_cons_of_neg (by simpa using hg), ih]

end Delegation.Ledger
