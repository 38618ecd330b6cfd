/-
# What decides a change

Granting succeeds iff everything is found, the rules for the grantee and the target are kept and the
actor may pass the right on.  Revoking succeeds iff the grant is stored, the right may be granted on
the target and the actor may pass it on; a grantee that is gone may be addressed by its identifier,
and what became of one that is there does not matter.  If they fail, the first condition that fails
says why.

## Key results

* `Script.delegates_iff` — whom a script lets pass a right on.
* `Engine.clear_grant_eq_ok_iff`, `cleared_revoke_iff` — what clearances demand.
* `Condition.eq_of_refusal?_revoke` — why a revocation is invalid.
* `granting_is_decided_by_its_conditions`, `revoking_is_decided_by_its_conditions` — when changes
  succeed, and why they fail.
-/
import Delegation.Proofs.Standing

namespace Delegation

open Request

/-- A script lets an actor pass a right on that it lists, unless the actor holds it in part. -/
theorem Script.delegates_iff {supports : Bool} {s : Script} {actor : GranteeEntry}
    {t : TargetEntry} {r : Right} :
    (Script.service supports).Delegates s actor t r ↔
      s.mayDelegate actor r ∧ s.checkPartiallyDenied actor t r = .ok () := by
  constructor
  · rintro ⟨⟨decision, hdecision, hallowed⟩, hwhole⟩
    cases hdecision
    exact ⟨hallowed, hwhole⟩
  · rintro ⟨hallowed, hwhole⟩
    exact ⟨⟨⟨s.mayDelegate actor r, none⟩, rfl, hallowed⟩, hwhole⟩

/-! ## Granting -/

section Granting

variable {supports : Bool} {config : Config} {w : World Directory Catalog Script Ledger}
  {p : Proposal} {t : TargetEntry}

/-- Granting is refused for the reason for which its change is refused. -/
theorem Engine.refusal_grant {D C E S : Type} (engine : Engine D C E S) (p : Proposal)
    (w : World D C E S) :
    refusal (engine.grant p.actor p.target p.grantee p.right p.modifier) w =
      refusal (engine.mutate .grant p) w := by
  unfold refusal
  rw [run_mutate_grant]
  cases ((engine.grant p.actor p.target p.grantee p.right p.modifier).run w).1 <;> rfl

/-- What is cleared to be granted keeps the rules, and an actor may pass it on. -/
theorem Cleared.of_grant {entry : Option GranteeEntry} {r : Right} {grant : Grant}
    (h : Cleared (.scripted supports Ledger.service config) w .grant p t entry r grant) :
    ∃ g, w.directory.lookupGrantee p.grantee.type p.grantee.locator = .ok g ∧
      r.Grantable g t.type ∧ ∀ actor, p.actor = some actor →
        w.evaluator.mayDelegate actor r ∧ w.evaluator.checkPartiallyDenied actor t r = .ok () := by
  obtain ⟨g, rfl, -, hg⟩ := h.granteeLookup_of_grant
  exact ⟨g, hg, checkEligibility_grant_eq_ok_iff.mp h.eligible,
    fun actor hactor => Script.delegates_iff.mp (h.delegated actor hactor rfl)⟩

/-- A clearance to grant passes iff everything is found, the rules are kept, and an actor may pass
the right on. -/
theorem Engine.clear_grant_eq_ok_iff :
    (∃ cleared, (((scripted supports Ledger.service config).clear .grant p).run w).1 =
        .ok cleared) ↔
      ∃ t g r, w.directory.lookupTarget p.target.type p.target.locator = .ok t ∧
        w.directory.lookupGrantee p.grantee.type p.grantee.locator = .ok g ∧
        Catalog.right w.catalog p.right = .ok r ∧ r.Grantable g t.type ∧
        ∀ actor, p.actor = some actor →
          w.evaluator.mayDelegate actor r ∧
            w.evaluator.checkPartiallyDenied actor t r = .ok () := by
  constructor
  · rintro ⟨⟨t, grant⟩, hclear⟩
    obtain ⟨entry, r, cleared⟩ := (clear_eq_ok_iff _).mp hclear
    obtain ⟨g, hg, hrest⟩ := cleared.of_grant
    exact ⟨t, g, r, cleared.target_found, hg, cleared.right_found, hrest⟩
  · rintro ⟨t, g, r, ht, hg, hr, hgrantable, hdelegates⟩
    refine ⟨(t, ⟨p.grantee.type, g.id, r.name, p.modifier⟩), (clear_eq_ok_iff _).mpr ?_⟩
    exact ⟨some g, r, {
      target_found := ht
      grantee_found := .present hg
      right_found := hr
      eligible := checkEligibility_grant_eq_ok_iff.mpr hgrantable
      delegated := fun actor hactor _ => Script.delegates_iff.mpr (hdelegates actor hactor)
      grant_eq := rfl }⟩

end Granting

/-- **What decides whether a right is granted.**  Granting succeeds iff the target, the grantee and
the right are found; the right is a user right, or it goes to a domain if it is the right for
administering another domain and else to a delegated admin or an admin group, and may be granted on
targets of the type; and an actor, if one is given, may pass the right on and holds it not only in
part.  Granting fails with an error iff it is that of the first of these conditions that fails. -/
theorem granting_is_decided_by_its_conditions (supports : Bool) (config : Config)
    (w : World Directory Catalog Script Ledger) (p : Proposal) :
    let engine := Engine.scripted supports Ledger.service config
    let granted := (engine.grant p.actor p.target p.grantee p.right p.modifier).run w
    (granted.1 = .ok () ↔
      ∃ t g r, w.directory.lookupTarget p.target.type p.target.locator = .ok t ∧
        w.directory.lookupGrantee p.grantee.type p.grantee.locator = .ok g ∧
        Catalog.right w.catalog p.right = .ok r ∧
        (r.isUserRight ∨
          (if r.isCrossDomainAdmin then g.type = .domain
            else g.type = .user ∧ g.admin = .delegated ∨ g.type = .group ∧ g.admin = .group) ∧
          r.grantableOn t.type) ∧
        ∀ actor, p.actor = some actor →
          w.evaluator.mayDelegate actor r ∧
            w.evaluator.checkPartiallyDenied actor t r = .ok ()) ∧
    ∀ e, granted.1 = .error e ↔
      [Condition.target, .grantee, .right, .crossDomain, .standing, .targetType, .delegation,
        .wholeness].findSome? (Condition.refusal? config w p .grant) = some e := by
  intro engine granted
  have hrefusal : refusal (engine.grant p.actor p.target p.grantee p.right p.modifier) w =
      Mutation.grant.conditions.findSome? (Condition.refusal? config w p .grant) :=
    (engine.refusal_grant p w).trans (Engine.refusal_mutate supports config w .grant p)
  -- The conditions of granting are those of its clearance.
  have hclear : refusal (engine.clear .grant p) w =
      refusal (engine.grant p.actor p.target p.grantee p.right p.modifier) w :=
    (Engine.refusal_clear supports config w .grant p).trans hrefusal.symm
  refine ⟨?_, fun e => ?_⟩
  · have hgranted : granted.1 = .ok () ↔ ∃ a, granted.1 = .ok a :=
      ⟨fun h => ⟨(), h⟩, fun ⟨_, h⟩ => h⟩
    rw [hgranted, ← refusal_eq_none_iff, ← hclear, refusal_eq_none_iff]
    exact Engine.clear_grant_eq_ok_iff
  · rw [← refusal_eq_some_iff, hrefusal]
    rfl

/-- A request in which the domain as grantee, the type of the target and the actor are all wrong is
refused for the domain, which is checked first. -/
theorem domain_is_refused_before_target_and_actor :
    let w : World Directory Catalog Script Ledger :=
      ⟨Sample.directory, Sample.catalog, .empty, .empty, []⟩
    let p : Proposal := ⟨some Sample.delegatedAdmin, ⟨.account, .byId, "u-user"⟩,
      ⟨.domain, .byName, "other.com"⟩, "createAccount", none⟩
    let fails (c : Condition) : Prop := (c.refusal? ⟨true, true⟩ w p .grant).isSome
    fails .crossDomain ∧ fails .targetType ∧ fails .delegation ∧
      (((Engine.scripted true Ledger.service ⟨true, true⟩).grant p.actor p.target p.grantee p.right
        p.modifier).run w).1 = .error (.invalid (.domainNotAllowed "createAccount")) := by
  intro w p fails
  refine ⟨by decide, by decide, by decide, ?_⟩
  exact ((granting_is_decided_by_its_conditions true ⟨true, true⟩ w p).2 _).mpr (by decide)

/-! ## Revoking -/

section Revoking

variable {C E : Type} {catalog : CatalogService C} {evaluator : EvaluatorService E}
  {config : Config}

/-- How the grantee of a revocation is found in memory. -/
theorem granteeFound_revoke_iff {d : Directory} {a : GranteeAddress} {entry : Option GranteeEntry}
    {granteeId : String} :
    GranteeFound (.inMemory catalog evaluator config) d a .revoke entry granteeId ↔
      (∃ g, entry = some g ∧ g.id = granteeId ∧ d.lookupGrantee a.type a.locator = .ok g) ∨
      (entry = none ∧ (∀ g, d.lookupGrantee a.type a.locator ≠ .ok g) ∧ config.orphanRevoke ∧
        a.locator = ⟨.byId, granteeId⟩) := by
  constructor
  · rintro (found | ⟨missing, -, configured, literal⟩)
    · exact .inl ⟨_, rfl, rfl, found⟩
    · have hmissing : d.lookupGrantee a.type a.locator = .error _ := missing
      refine .inr ⟨rfl, fun g hg => ?_, configured, literal⟩
      rw [hmissing] at hg
      cases hg
  · rintro (⟨g, rfl, rfl, found⟩ | ⟨rfl, hmissing, configured, literal⟩)
    · exact .present found
    · cases hlookup : d.lookupGrantee a.type a.locator with
      | ok g => exact absurd hlookup (hmissing g)
      | error e =>
        rw [Directory.eq_of_lookupGrantee_error hlookup] at hlookup
        exact .gone hlookup (Directory.isMissingGrantee_missingGrantee _) configured literal

end Revoking

section Scripted

variable {supports : Bool} {config : Config} {w : World Directory Catalog Script Ledger}
  {p : Proposal}

/-- What is cleared to be revoked. -/
theorem cleared_revoke_iff {t : TargetEntry} {r : Right} {grant : Grant} :
    (∃ entry, Cleared (.scripted supports Ledger.service config) w .revoke p t entry r grant) ↔
      w.directory.lookupTarget p.target.type p.target.locator = .ok t ∧
      ((∃ g, w.directory.lookupGrantee p.grantee.type p.grantee.locator = .ok g ∧
          g.id = grant.granteeId ∧ ∀ actor, p.actor = some actor →
            w.evaluator.mayDelegate actor r ∧
              w.evaluator.checkPartiallyDenied actor t r = .ok ()) ∨
        (∀ g, w.directory.lookupGrantee p.grantee.type p.grantee.locator ≠ .ok g) ∧
          config.orphanRevoke ∧ p.grantee.locator = ⟨.byId, grant.granteeId⟩) ∧
      Catalog.right w.catalog p.right = .ok r ∧ (r.isUserRight ∨ r.grantableOn t.type) ∧
      grant = ⟨p.grantee.type, grant.granteeId, r.name, p.modifier⟩ := by
  constructor
  · rintro ⟨entry, h⟩
    refine ⟨h.target_found, ?_, h.right_found, checkEligibility_revoke_eq_ok_iff.mp h.eligible,
      h.grant_eq⟩
    rcases granteeFound_revoke_iff.mp h.grantee_found with ⟨g, rfl, hid, hg⟩ | ⟨-, hgone⟩
    · exact .inl ⟨g, hg, hid, fun actor hactor =>
        Script.delegates_iff.mp (h.delegated actor hactor rfl)⟩
    · exact .inr hgone
  · rintro ⟨ht, hfound, hr, heligible, hgrant⟩
    have hcheck {entry : Option GranteeEntry} :
        Engine.checkEligibility t entry r .revoke = .ok () :=
      checkEligibility_revoke_eq_ok_iff.mpr heligible
    rcases hfound with ⟨g, hg, hid, hdelegates⟩ | hgone
    · exact ⟨some g, ht, granteeFound_revoke_iff.mpr (.inl ⟨g, rfl, hid, hg⟩), hr, hcheck,
        fun actor hactor _ => Script.delegates_iff.mpr (hdelegates actor hactor), hgrant⟩
    · exact ⟨none, ht, granteeFound_revoke_iff.mpr (.inr ⟨rfl, hgone⟩), hr, hcheck,
        fun _ _ hnone => (nomatch hnone), hgrant⟩

/-- A revocation is invalid only because of the name of its grantee or the type of its target. -/
theorem Condition.eq_of_refusal?_revoke {c : Condition} {reason : InvalidRequest}
    (hc : c ∈ Mutation.revoke.conditions)
    (h : c.refusal? config w p .revoke = some (.invalid reason)) :
    reason = .granteeNameUnresolvable p.grantee.locator.key ∨
      ∃ right type valid, reason = .targetTypeNotGrantable right type valid := by
  cases c with
  | crossDomain | standing => exact absurd hc (by decide)
  | target => exact absurd h refusalOf_ne_invalid
  | right => exact absurd h refusalOf_ne_invalid
  | grantee =>
    simp only [refusal?] at h
    cases hlookup : w.directory.lookupGrantee p.grantee.type p.grantee.locator with
    | ok g =>
      rw [hlookup] at h
      cases h
    | error cause =>
      simp only [hlookup] at h
      split at h
      · split at h
        · cases h
        · cases h
          exact .inl rfl
      · exact absurd (Option.some.inj h) (ofService_ne_invalid cause reason)
  | targetType =>
    simp only [refusal?, Option.bind_eq_bind, Option.bind_eq_some_iff] at h
    obtain ⟨t, -, r, -, h⟩ := h
    split at h
    · cases h
    · cases h
      exact .inr ⟨_, _, _, rfl⟩
  | delegation =>
    simp only [refusal?, Option.bind_eq_bind, Option.bind_eq_some_iff] at h
    obtain ⟨actor, -, g, -, r, -, h⟩ := h
    split at h <;> cases h
  | wholeness =>
    simp only [refusal?, Option.bind_eq_bind, Option.bind_eq_some_iff] at h
    obtain ⟨actor, -, t, -, g, -, r, -, h⟩ := h
    exact absurd h refusalOf_ne_invalid
  | listed =>
    simp only [refusal?, Option.bind_eq_bind, Option.bind_eq_some_iff] at h
    obtain ⟨change, -, h⟩ := h
    split at h <;> cases h

end Scripted

/-- **What decides whether a grant is revoked.**  Revoking fails with an error iff it is that of the
first condition that fails: the target is found; the grantee is found, or the configuration allows
for grantees that are gone and this one is addressed by its identifier, which is then taken
literally; the right is found; unless it is a user right, it may be granted on targets of the type;
an actor, if one is given and the grantee was found, may pass the right on and holds it not only in
part; and exactly this grant is stored on the target.  Otherwise this grant is returned.  Neither
the standing of the grantees nor the rules for who may hold an admin right matter. -/
theorem revoking_is_decided_by_its_conditions (supports : Bool) (config : Config)
    (w : World Directory Catalog Script Ledger) (p : Proposal) :
    let engine := Engine.scripted supports Ledger.service config
    let revoke := engine.revoke p.actor p.target p.grantee p.right p.modifier
    (∀ e, (revoke.run w).1 = .error e ↔
      [Condition.target, .grantee, .right, .targetType, .delegation, .wholeness, .listed].findSome?
        (Condition.refusal? config w p .revoke) = some e) ∧
    (∀ removed, (revoke.run w).1 = .ok removed ↔
      ∃ t granteeId r, w.directory.lookupTarget p.target.type p.target.locator = .ok t ∧
        ((∃ g, w.directory.lookupGrantee p.grantee.type p.grantee.locator = .ok g ∧
            g.id = granteeId ∧ ∀ actor, p.actor = some actor →
              w.evaluator.mayDelegate actor r ∧
                w.evaluator.checkPartiallyDenied actor t r = .ok ()) ∨
          (∀ g, w.directory.lookupGrantee p.grantee.type p.grantee.locator ≠ .ok g) ∧
            config.orphanRevoke ∧ p.grantee.locator = ⟨.byId, granteeId⟩) ∧
        Catalog.right w.catalog p.right = .ok r ∧ (r.isUserRight ∨ r.grantableOn t.type) ∧
        let grant : Grant := ⟨p.grantee.type, granteeId, r.name, p.modifier⟩
        grant ∈ w.store.on t.key ∧ removed = [grant]) ∧
    (∀ d : Directory, d.SameButStanding w.directory →
      (revoke.run { w with directory := d }).1 = (revoke.run w).1 ∧
        (revoke.run { w with directory := d }).2.store = (revoke.run w).2.store) ∧
    ∀ reason, (revoke.run w).1 = .error (.invalid reason) →
      reason = .granteeNameUnresolvable p.grantee.locator.key ∨
        ∃ right type valid, reason = .targetTypeNotGrantable right type valid := by
  intro engine revoke
  have hrefusal : refusal revoke w =
      Mutation.revoke.conditions.findSome? (Condition.refusal? config w p .revoke) :=
    Engine.refusal_mutate supports config w .revoke p
  refine ⟨fun e => ?_, fun removed => ?_, fun d hd => ?_, fun reason hreason => ?_⟩
  · rw [← refusal_eq_some_iff, hrefusal]
    rfl
  · have hok : (revoke.run w).1 = .ok removed ↔ _ := Engine.mutate_revoke_eq_ok_iff
    rw [hok]
    constructor
    · rintro ⟨t, entry, r, grant, cleared, listed, rfl⟩
      obtain ⟨ht, hfound, hr, heligible, hgrant⟩ := cleared_revoke_iff.mp ⟨entry, cleared⟩
      refine ⟨t, grant.granteeId, r, ht, hfound, hr, heligible, ?_⟩
      rw [← hgrant]
      exact ⟨listed, rfl⟩
    · rintro ⟨t, granteeId, r, ht, hfound, hr, heligible, listed, rfl⟩
      let grant : Grant := ⟨p.grantee.type, granteeId, r.name, p.modifier⟩
      have hgrant : grant = ⟨p.grantee.type, grant.granteeId, r.name, p.modifier⟩ := rfl
      obtain ⟨entry, cleared⟩ := cleared_revoke_iff.mpr ⟨ht, hfound, hr, heligible, hgrant⟩
      exact ⟨t, entry, r, grant, cleared, listed, rfl⟩
  · exact Engine.mutate_revoke_of_sameButStanding hd
  · have hfirst := refusal_of_error hreason
    rw [hrefusal] at hfirst
    obtain ⟨c, hc, hinvalid⟩ := List.exists_of_findSome?_eq_some hfirst
    exact Condition.eq_of_refusal?_revoke hc hinvalid

/-- A grant to an admin that has lost its standing, of a right that was never for admins, is
revoked. -/
theorem grant_without_standing_is_revoked :
    let demoted := Sample.directory.addGrantee (.plain .user "u-da" "da@example.com")
    let grant : Grant := ⟨.user, "u-da", Right.crossDomainAdmin, none⟩
    let w : World Directory Catalog Script Ledger :=
      ⟨Sample.directory, Sample.catalog, .empty,
        Ledger.add .empty ⟨.domain, "d-example"⟩ [grant], []⟩
    let revoke := (Engine.scripted true Ledger.service ⟨true, true⟩).revoke none
      ⟨.domain, .byName, "example.com"⟩ ⟨.user, .byName, "da@example.com"⟩
      Right.crossDomainAdmin none
    demoted.SameButStanding Sample.directory ∧
      (revoke.run { w with directory := demoted }).1 = .ok [grant] := by
  intro demoted grant w revoke
  have hsame : demoted.SameButStanding Sample.directory := ⟨rfl, by decide⟩
  obtain ⟨-, hok, hstanding, -⟩ := revoking_is_decided_by_its_conditions true ⟨true, true⟩ w
    ⟨none, ⟨.domain, .byName, "example.com"⟩, ⟨.user, .byName, "da@example.com"⟩,
      Right.crossDomainAdmin, none⟩
  refine ⟨hsame, (hstanding demoted hsame).1.trans ?_⟩
  refine (hok [grant]).mpr ⟨.plain .domain (some "d-example") "example.com", "u-da",
    Sample.adminRight Right.crossDomainAdmin "administer another domain" .preset [.domain], by rfl,
    .inl ⟨Sample.delegatedAdmin, by rfl, rfl, nofun⟩, by rfl, .inr (by decide), by decide, rfl⟩

end Delegation
