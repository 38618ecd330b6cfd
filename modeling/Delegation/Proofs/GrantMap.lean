/-
# Ledgers as maps

Seen from outside, a ledger is a map from targets to sets of grants.  A change puts one grant into
one of these sets or takes one out, and a run of changes leaves a grant in its set iff the grant
was there or was put there, and was not taken out since.

## Key constructions

* `GrantMap` — a set of grants for each target.
* `Change`, `GrantMap.apply` — one grant more or less on one target.
* `GrantedSince` — a run of changes grants a grant and does not revoke it after that.
* `Ledger.toMap` — what a ledger lists.

## Key results

* `GrantMap.mem_foldl_apply` — what a run of changes leaves on a target.
* `Ledger.toMap_add`, `Ledger.toMap_erase` — the operations of a ledger are changes of its map.
-/
import Delegation.Engine.Mutation
import Delegation.Proofs.Ledger
import Mathlib.Data.List.Induction
import Mathlib.Data.Set.Insert
import Mathlib.Logic.Function.Basic

namespace Delegation

/-! ## Maps and changes -/

/-- A set of grants for each target. -/
abbrev GrantMap : Type := TargetKey → Set Grant

/-- One grant more or less on a target. -/
structure Change where
  mutation : Mutation
  target : TargetKey
  grant : Grant
deriving DecidableEq

namespace GrantMap

/-- The map after a change.  A grant that is there already is not granted again, and the sets of
the other targets stay as they are. -/
def apply (m : GrantMap) (c : Change) : GrantMap :=
  Function.update m c.target <|
    match c.mutation with
    | .grant => insert c.grant (m c.target)
    | .revoke => m c.target \ {c.grant}

/-- A change leaves a grant in its set iff it grants this grant, or the grant was there and is not
revoked. -/
theorem mem_apply {m : GrantMap} {c : Change} {k : TargetKey} {g : Grant} :
    g ∈ m.apply c k ↔ c = ⟨.grant, k, g⟩ ∨ g ∈ m k ∧ c ≠ ⟨.revoke, k, g⟩ := by
  obtain ⟨μ, k', g'⟩ := c
  unfold apply
  by_cases hk : k = k'
  · subst hk
    rw [Function.update_self]
    cases μ with
    | grant => simp [eq_comm]
    | revoke => simp [eq_comm]
  · have hk' : ¬ k' = k := fun h => hk h.symm
    rw [Function.update_of_ne hk]
    simp [hk']

end GrantMap

/-! ## Runs of changes -/

variable {cs : List Change} {c : Change} {k : TargetKey} {g : Grant}

/-- The changes grant `g` on the target `k`, and do not revoke it after that. -/
def GrantedSince (cs : List Change) (k : TargetKey) (g : Grant) : Prop :=
  ∃ before after, cs = before ++ ⟨.grant, k, g⟩ :: after ∧ ⟨.revoke, k, g⟩ ∉ after

theorem not_grantedSince_nil : ¬ GrantedSince [] k g := by
  rintro ⟨before, after, h, -⟩
  simp at h

/-- One change more either grants the grant, or leaves it as granted before. -/
theorem grantedSince_concat :
    GrantedSince (cs ++ [c]) k g ↔
      c = ⟨.grant, k, g⟩ ∨ GrantedSince cs k g ∧ c ≠ ⟨.revoke, k, g⟩ := by
  constructor
  · rintro ⟨before, after, h, hafter⟩
    -- The change at the end is the one that grants, or it comes after that.
    rcases after.eq_nil_or_concat with rfl | ⟨after, last, rfl⟩
    · have hc := List.append_inj_right' h rfl
      exact .inl (List.cons.inj hc).1
    · rw [List.concat_eq_append] at h hafter
      rw [← List.cons_append, ← List.append_assoc] at h
      obtain ⟨hcs, hc⟩ := List.append_inj' h rfl
      obtain rfl : c = last := (List.cons.inj hc).1
      rw [List.mem_append, List.mem_singleton, not_or] at hafter
      exact .inr ⟨⟨before, after, hcs, hafter.1⟩, Ne.symm hafter.2⟩
  · rintro (rfl | ⟨⟨before, after, rfl, hafter⟩, hc⟩)
    · exact ⟨cs, [], rfl, List.not_mem_nil⟩
    · refine ⟨before, after ++ [c], by simp, ?_⟩
      simp [hafter, hc.symm]

/-- What a run of changes leaves on a target: the grants that were there initially or were granted,
and that were not revoked since. -/
theorem GrantMap.mem_foldl_apply {m : GrantMap} :
    g ∈ cs.foldl GrantMap.apply m k ↔ g ∈ m k ∧ ⟨.revoke, k, g⟩ ∉ cs ∨ GrantedSince cs k g := by
  -- From the end, because the last change of a grant decides whether it is there.
  induction cs using List.reverseRecOn with
  | nil => simp [not_grantedSince_nil]
  | append_singleton cs c ih =>
    rw [List.foldl_append, List.foldl_cons, List.foldl_nil, mem_apply, ih, grantedSince_concat,
      List.mem_append, List.mem_singleton, not_or]
    constructor
    · rintro (hc | ⟨⟨hm, hcs⟩ | hs, hc⟩)
      · exact .inr (.inl hc)
      · exact .inl ⟨hm, hcs, Ne.symm hc⟩
      · exact .inr (.inr ⟨hs, hc⟩)
    · rintro (⟨hm, hcs, hc⟩ | hc | ⟨hs, hc⟩)
      · exact .inr ⟨.inl ⟨hm, hcs⟩, Ne.symm hc⟩
      · exact .inl hc
      · exact .inr ⟨.inr hs, hc⟩

/-! ## The map of a ledger -/

namespace Ledger

variable {l : Ledger}

/-- The map of what a ledger lists on each target. -/
def toMap (l : Ledger) : GrantMap := fun k => { g | g ∈ l.on k }

theorem mem_toMap : g ∈ l.toMap k ↔ g ∈ l.on k := Iff.rfl

/-- A ledger is determined by its map. -/
theorem toMap_injective : Function.Injective toMap := fun l l' h =>
  ext_on fun k g => by rw [← mem_toMap, h, mem_toMap]

theorem toMap_add : (l.add k [g]).toMap = l.toMap.apply ⟨.grant, k, g⟩ := by
  funext k'
  ext g'
  rw [mem_toMap, mem_on_add, GrantMap.mem_apply, mem_toMap]
  simp [or_comm, eq_comm]

theorem toMap_erase : toMap (l.erase ⟨k, g⟩) = l.toMap.apply ⟨.revoke, k, g⟩ := by
  funext k'
  ext g'
  rw [mem_toMap, mem_on_erase, GrantMap.mem_apply, mem_toMap]
  simp [eq_comm]

end Ledger

end Delegation
