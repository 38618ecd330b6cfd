/-
# The principal of a grant

A grant is checked against the entry that the directory finds for its grantee, and it bears the
identifier of this entry but the type under which the grantee was looked up.  A directory that
resolves a lookup to an entry of another type takes these apart: the grant is then recorded for a
principal that was not checked.

## Key results

* `Right.Grantable.type_eq_iff` — which type of grantee an admin right may be recorded for.
* `Engine.cleared_of_granted` — a grant that succeeds has been cleared, and is stored.
* `recorded_principal_is_checked_iff` — the principal that is recorded is the one that was checked
  iff the directory answers with an entry of the type that it was asked for.
* `alias_is_recorded_as_account` — a group that was checked is recorded as an account.
-/
import Delegation.Proofs.Eligibility
import Delegation.Rehearsal.Alias

namespace Delegation

/-- Of an admin right that may be granted to an entry, only the type of the entry agrees with the
rules for who may hold it. -/
theorem Right.Grantable.type_eq_iff {r : Right} {entry : GranteeEntry} {on : TargetType}
    (h : r.Grantable entry on) (hadmin : r.isUserRight = false) (type : GranteeType) :
    ((type = .domain ↔ r.isCrossDomainAdmin) ∧
      (¬ r.isCrossDomainAdmin → type = .user ∧ entry.admin = .delegated ∨
        type = .group ∧ entry.admin = .group)) ↔ type = entry.type := by
  rcases h with huser | ⟨hrules, -⟩
  · rw [hadmin] at huser
    cases huser
  by_cases hcross : r.isCrossDomainAdmin
  · rw [if_pos hcross] at hrules
    simp [hcross, hrules]
  · rw [if_neg hcross] at hrules
    -- The standing tells an account from a group.
    rcases hrules with ⟨htype, hstanding⟩ | ⟨htype, hstanding⟩
    · cases type <;> simp [hcross, htype, hstanding]
    · cases type <;> simp [hcross, htype, hstanding]

section Recording

variable {D C E : Type}

/-- A grant that succeeds has been cleared, and it is stored on its target. -/
theorem Engine.cleared_of_granted (engine : Engine D C E Ledger) {w : World D C E Ledger}
    {p : Proposal} (hstore : engine.store = Ledger.service) :
    let granted := (engine.grant p.actor p.target p.grantee p.right p.modifier).run w
    granted.1 = .ok () → ∃ t entry r grant, Cleared engine w .grant p t entry r grant ∧
      granted.2.store = w.store.add t.key [grant] := by
  intro granted h
  have hrun : (engine.mutate .grant p).run w = (.ok [], granted.2) := by
    rw [engine.run_mutate_grant]
    show (granted.1.map fun _ => [], granted.2) = _
    rw [h]
    rfl
  rcases engine.mutate_cases .grant p w with ⟨e, v, -, -, hm⟩ | ⟨t, grant, v, hc, hv, hm⟩
  · rw [hrun] at hm
    cases hm
  · obtain ⟨entry, r, cleared⟩ := engine.clear_eq_ok_iff.mp (congrArg Prod.fst hc)
    have hadd : (engine.store.addGrants t [grant]).run v.store =
        (.ok (), w.store.add t.key [grant]) := by
      rw [hstore, hv]
      rfl
    rw [hrun, engine.run_carryOut_grant hadd] at hm
    exact ⟨t, entry, r, grant, cleared, congrArg World.store (Prod.mk.inj hm).2⟩

end Recording

/-- **When the principal that is recorded is the one that was checked.**  A grant that succeeds over
any directory has been checked against the entry that the directory found for the grantee, and one
grant is stored on the target: of the type under which the grantee was looked up, with the
identifier of the entry.  This is the type and the identifier of the entry iff the directory has
found an entry of the type that it was asked for.  And for an admin right, only then the type in the
grant is that of a domain iff the right is the one for administering another domain, and else that
of an account that is a delegated admin, or of an admin group. -/
theorem recorded_principal_is_checked_iff {D C E : Type} (directory : DirectoryService D)
    (catalog : CatalogService C) (evaluator : EvaluatorService E) (config : Config)
    (w : World D C E Ledger) (p : Proposal) :
    let engine : Engine D C E Ledger := ⟨⟨directory, catalog, evaluator, Ledger.service⟩, config⟩
    let granted := (engine.grant p.actor p.target p.grantee p.right p.modifier).run w
    let targetFound := (directory.lookupTarget p.target.type p.target.locator).run w.directory
    let granteeFound := (directory.lookupGrantee p.grantee.type p.grantee.locator).run targetFound.2
    granted.1 = .ok () →
      ∃ t entry r, targetFound.1 = .ok t ∧ granteeFound.1 = .ok entry ∧
        ((catalog.right p.right).run w.catalog).1 = .ok r ∧ r.Grantable entry t.type ∧
        ∃ grant : Grant, granted.2.store = w.store.add t.key [grant] ∧
          grant = ⟨p.grantee.type, entry.id, r.name, p.modifier⟩ ∧
          (grant.granteeType = entry.type ∧ grant.granteeId = entry.id ↔
            entry.type = p.grantee.type) ∧
          (r.isUserRight = false →
            ((grant.granteeType = .domain ↔ r.isCrossDomainAdmin) ∧
              (¬ r.isCrossDomainAdmin →
                grant.granteeType = .user ∧ entry.admin = .delegated ∨
                  grant.granteeType = .group ∧ entry.admin = .group) ↔
              entry.type = p.grantee.type)) := by
  intro engine granted targetFound granteeFound h
  obtain ⟨t, found, r, grant, cleared, hstore⟩ := engine.cleared_of_granted rfl h
  obtain ⟨entry, rfl, hid, hentry⟩ := cleared.grantee_found.exists_of_grant
  have hgrantable := checkEligibility_grant_eq_ok_iff.mp cleared.eligible
  have htype : grant.granteeType = p.grantee.type := congrArg Grant.granteeType cleared.grant_eq
  have hgrant : grant = ⟨p.grantee.type, entry.id, r.name, p.modifier⟩ := by
    rw [← hid]
    exact cleared.grant_eq
  refine ⟨t, entry, r, cleared.target_found, hentry, cleared.right_found, hgrantable, grant, hstore,
    hgrant, ?_, fun hadmin => ?_⟩
  · rw [htype, and_iff_left hid, eq_comm]
  · rw [htype, hgrantable.type_eq_iff hadmin, eq_comm]

/-- An account of the sample that is granted a right is recorded as the account that was checked. -/
theorem account_is_recorded_as_checked :
    let w : World Directory Catalog Script Ledger :=
      ⟨Sample.directory, Sample.catalog, .empty, .empty, []⟩
    let engine := Engine.inMemory Catalog.service (Script.service true) ⟨true, true⟩
    let granted := (engine.grant none ⟨.domain, .byName, "example.com"⟩
      ⟨.user, .byName, "da@example.com"⟩ "createAccount" none).run w
    granted.1 = .ok () ∧ ∃ grant, granted.2.store = w.store.add ⟨.domain, "d-example"⟩ [grant] ∧
      grant.granteeType = Sample.delegatedAdmin.type ∧
      grant.granteeId = Sample.delegatedAdmin.id := by
  intro w engine granted
  have hok : granted.1 = .ok () := by rfl
  obtain ⟨t, entry, r, ht, hentry, -, -, grant, hstore, -, hchecked, -⟩ :=
    recorded_principal_is_checked_iff Directory.service Catalog.service (Script.service true)
      ⟨true, true⟩ w ⟨none, ⟨.domain, .byName, "example.com"⟩, ⟨.user, .byName, "da@example.com"⟩,
        "createAccount", none⟩ hok
  cases ht
  cases hentry
  exact ⟨hok, grant, hstore, hchecked.mpr rfl⟩

/-- An alias under which an account lookup finds a group: the group is checked, and the grant is
recorded for an account with the identifier of the group. -/
theorem alias_is_recorded_as_account :
    let directory := Aliased.service Directory.service
    let w : World (Aliased Directory) Catalog Script Ledger :=
      ⟨⟨Sample.directory, ["admins@example.com"]⟩, Sample.catalog, .empty, .empty, []⟩
    let engine : Engine (Aliased Directory) Catalog Script Ledger :=
      ⟨⟨directory, Catalog.service, Script.service true, Ledger.service⟩, ⟨true, true⟩⟩
    let granted := (engine.grant none ⟨.domain, .byName, "example.com"⟩
      ⟨.user, .byName, "admins@example.com"⟩ "createAccount" none).run w
    let entry : GranteeEntry := ⟨.group, "g-admins", "admins@example.com", .group⟩
    granted.1 = .ok () ∧
      ((directory.lookupGrantee .user ⟨.byName, "admins@example.com"⟩).run w.directory).1 =
        .ok entry ∧
      granted.2.store.on ⟨.domain, "d-example"⟩ = [⟨.user, "g-admins", "createAccount", none⟩] ∧
      ¬ ∀ grant ∈ granted.2.store.on ⟨.domain, "d-example"⟩,
        grant.granteeType = entry.type ∧ grant.granteeId = entry.id := by
  intro directory w engine granted entry
  exact ⟨by rfl, by rfl, by decide, by decide⟩

end Delegation
