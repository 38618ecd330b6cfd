/-
# Standing

Whether a grantee may hold admin rights depends on its standing, and this is looked at when a right
is granted to it.  Afterwards it does not matter any more: revocations come to the same in
directories whose grantees differ in their standing only.

## Key constructions

* `Directory.SameButStanding` — two directories differ in the standing of their grantees only.

## Key results

* `Directory.SameButStanding.grantee?_cases` — lookups find the same grantees but for their
  standing.
* `Condition.refusal?_of_sameButStanding` — only one condition depends on the standing.
* `Engine.result_mutate_revoke` — what a revocation comes to.
* `Engine.mutate_revoke_of_sameButStanding` — a revocation does not depend on the standing.
-/
import Delegation.Proofs.Condition
import Delegation.Proofs.Revocability

namespace Delegation

open Request

/-! ## Grantees but for their standing -/

/-- A grantee without its standing. -/
def GranteeEntry.unranked (g : GranteeEntry) : GranteeEntry := { g with admin := .none }

/-- Two directories have the same targets, and grantees that differ in their standing only. -/
structure Directory.SameButStanding (d d' : Directory) : Prop where
  targets : d.targets = d'.targets
  grantees : d.grantees.toList.map GranteeEntry.unranked =
    d'.grantees.toList.map GranteeEntry.unranked

namespace Directory.SameButStanding

variable {d d' : Directory}

/-- A search that does not look at the standing finds the same grantee. -/
theorem find? (h : d.SameButStanding d') {q : GranteeEntry → Bool}
    (hq : ∀ g, q g.unranked = q g) :
    (d.grantees.toList.find? q).map GranteeEntry.unranked =
      (d'.grantees.toList.find? q).map GranteeEntry.unranked := by
  have hcomp : q ∘ GranteeEntry.unranked = q := funext hq
  have hfind (l : List GranteeEntry) :
      (l.find? q).map GranteeEntry.unranked = (l.map GranteeEntry.unranked).find? q := by
    rw [List.find?_map, hcomp]
  rw [hfind, hfind, h.grantees]

/-- A locator points to the same grantee. -/
theorem map_grantee? (h : d.SameButStanding d') (type : GranteeType) (loc : Locator) :
    (d.grantee? type loc).map GranteeEntry.unranked =
      (d'.grantee? type loc).map GranteeEntry.unranked := by
  unfold Directory.grantee?
  cases builtIn? type with
  | some g => rfl
  | none =>
    cases loc.mode with
    | byId => exact h.find? fun _ => rfl
    | byName => exact h.find? fun _ => rfl

/-- A locator points to the same grantee in both directories, or to none in both. -/
theorem grantee?_cases (h : d.SameButStanding d') (type : GranteeType) (loc : Locator) :
    (∃ g g', d.grantee? type loc = some g ∧ d'.grantee? type loc = some g' ∧
      g.unranked = g'.unranked) ∨
    d.grantee? type loc = none ∧ d'.grantee? type loc = none := by
  have hsame := h.map_grantee? type loc
  cases hg : d.grantee? type loc with
  | none =>
    rw [hg, Option.map_none, eq_comm, Option.map_eq_none_iff] at hsame
    exact .inr ⟨rfl, hsame⟩
  | some g =>
    rw [hg, Option.map_some, eq_comm, Option.map_eq_some_iff] at hsame
    obtain ⟨g', hg', heq⟩ := hsame
    exact .inl ⟨g, g', rfl, hg', heq.symm⟩

theorem lookupTarget (h : d.SameButStanding d') (type : TargetType) (loc : Locator) :
    d.lookupTarget type loc = d'.lookupTarget type loc := by
  unfold Directory.lookupTarget
  rw [h.targets]

/-- Grants are stored under the same identifier. -/
theorem granteeId? (h : d.SameButStanding d') (a : GranteeAddress) :
    d.granteeId? a = d'.granteeId? a := by
  unfold Directory.granteeId?
  rw [d.lookupGrantee_eq, d'.lookupGrantee_eq]
  rcases h.grantee?_cases a.type a.locator with ⟨g, g', hg, hg', hsame⟩ | ⟨hg, hg'⟩
  · have hid : g.unranked.id = g'.unranked.id := congrArg GranteeEntry.id hsame
    rw [hg, hg']
    exact congrArg some hid
  · rw [hg, hg']

end Directory.SameButStanding

/-! ## Changes -/

section Changes

variable {supports : Bool} {config : Config} {w : World Directory Catalog Script Ledger}
  {p : Proposal} {d : Directory}

/-- The change that a proposal names does not depend on the standing of its grantee. -/
theorem Directory.SameButStanding.change? (h : d.SameButStanding w.directory) (μ : Mutation) :
    p.change? Catalog.service { w with directory := d } μ = p.change? Catalog.service w μ := by
  unfold Proposal.change?
  rw [h.lookupTarget, h.granteeId?]

/-- A condition other than the one on the standing does not depend on it. -/
theorem Condition.refusal?_of_sameButStanding (h : d.SameButStanding w.directory) {μ : Mutation}
    {c : Condition} (hc : c ≠ .standing) :
    c.refusal? config { w with directory := d } p μ = c.refusal? config w p μ := by
  have htarget : p.target? { w with directory := d } = p.target? w := by
    unfold Proposal.target? Directory.target?
    rw [h.targets]
  have hright : p.right? { w with directory := d } = p.right? w := rfl
  have hgrantee := h.grantee?_cases p.grantee.type p.grantee.locator
  cases c with
  | standing => exact absurd rfl hc
  | target => exact congrArg refusalOf (h.lookupTarget _ _)
  | right => rfl
  | listed =>
    unfold refusal?
    rw [h.change?]
  | targetType =>
    unfold refusal?
    rw [htarget, hright]
  | grantee =>
    unfold refusal?
    rw [d.lookupGrantee_eq, w.directory.lookupGrantee_eq]
    rcases hgrantee with ⟨g, g', hg, hg', -⟩ | ⟨hg, hg'⟩
    · rw [hg, hg']
    · rw [hg, hg']
  | crossDomain =>
    unfold refusal? Proposal.grantee?
    rw [hright]
    rcases hgrantee with ⟨g, g', hg, hg', hsame⟩ | ⟨hg, hg'⟩
    · have htype : g.type = g'.type := (congrArg GranteeEntry.type hsame :)
      rw [hg, hg']
      simp only [Option.bind_eq_bind, Option.bind_some, htype]
    · rw [hg, hg']
  | delegation =>
    unfold refusal? Proposal.grantee?
    rw [hright]
    rcases hgrantee with ⟨g, g', hg, hg', -⟩ | ⟨hg, hg'⟩
    · rw [hg, hg']
      rfl
    · rw [hg, hg']
  | wholeness =>
    unfold refusal? Proposal.grantee?
    rw [htarget, hright]
    rcases hgrantee with ⟨g, g', hg, hg', -⟩ | ⟨hg, hg'⟩
    · rw [hg, hg']
      rfl
    · rw [hg, hg']

/-- What a revocation comes to: it is refused for the first of its conditions that fails, or it
returns the grant that it names. -/
theorem Engine.result_mutate_revoke (supports : Bool) (config : Config)
    (w : World Directory Catalog Script Ledger) (p : Proposal) :
    (((scripted supports Ledger.service config).mutate .revoke p).run w).1 =
      match Mutation.revoke.conditions.findSome? (Condition.refusal? config w p .revoke) with
      | some e => .error e
      | none => .ok ((p.change? Catalog.service w .revoke).toList.map Change.grant) := by
  rw [← refusal_mutate supports]
  cases hresult : (((scripted supports Ledger.service config).mutate .revoke p).run w).1 with
  | error e => rw [refusal_of_error hresult]
  | ok removed =>
    rw [refusal_of_ok hresult]
    obtain ⟨t, entry, r, grant, cleared, -, rfl⟩ := mutate_revoke_eq_ok_iff.mp hresult
    rw [cleared.change?_eq]
    rfl

/-- The standing of the grantees changes neither the result of a revocation nor what it leaves
behind. -/
theorem Engine.mutate_revoke_of_sameButStanding (h : d.SameButStanding w.directory) :
    let revoked := ((scripted supports Ledger.service config).mutate .revoke p).run w
    let revoked' :=
      ((scripted supports Ledger.service config).mutate .revoke p).run { w with directory := d }
    revoked'.1 = revoked.1 ∧ revoked'.2.store = revoked.2.store := by
  intro revoked revoked'
  have hconditions :
      Mutation.revoke.conditions.findSome?
          (Condition.refusal? config { w with directory := d } p .revoke) =
        Mutation.revoke.conditions.findSome? (Condition.refusal? config w p .revoke) := by
    rw [← List.head?_filterMap, ← List.head?_filterMap]
    refine congrArg List.head? (List.filterMap_congr fun c hc => ?_)
    refine Condition.refusal?_of_sameButStanding h ?_
    rintro rfl
    exact absurd hc (by decide)
  have hresult : revoked'.1 = revoked.1 := by
    show (_ : Except RequestError (List Grant)) = _
    rw [result_mutate_revoke, result_mutate_revoke, hconditions, h.change?]
  have ho : Outcome (scripted supports Ledger.service config) w p .revoke revoked.1
      revoked.2.store :=
    outcome_mutate Catalog.service (Script.service supports) config w .revoke p
  have ho' : Outcome (scripted supports Ledger.service config) { w with directory := d } p .revoke
      revoked'.1 revoked'.2.store :=
    outcome_mutate Catalog.service (Script.service supports) config _ .revoke p
  rw [hresult] at ho'
  exact ⟨hresult, ho'.store_congr ho rfl (h.change? .revoke)⟩

end Changes

end Delegation
