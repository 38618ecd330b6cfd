/-
# The conditions of a change

A change of grants is refused for the first of its conditions that fails, and it is carried out if
none of them does.  Each condition is stated on its own, about the entries, the rights, the answers
of the evaluator and the stored grants at the time of the request; in which order the conditions are
checked is a list.

## Key constructions

* `Proposal.target?`, `Proposal.grantee?`, `Proposal.right?` — what a proposal names, if it is
  there.
* `Condition` — what a change has to satisfy.
* `Condition.refusal?` — the reason for which a change is refused that does not satisfy a condition.
* `Mutation.conditions` — the conditions of granting and of revoking, in their order.

## Key results

* `Engine.refusal_clear` — a clearance is refused for the first condition of it that fails.
* `Engine.refusal_mutate` — a change is refused for the first of its conditions that fails.
-/
import Delegation.Proofs.Eligibility
import Delegation.Proofs.Question
import Delegation.Proofs.Refinement

namespace Delegation

open Request

/-! ## Conditions -/

section Naming

variable {S : Type} (p : Proposal) (w : World Directory Catalog Script S)

/-- The target that a proposal names. -/
def Proposal.target? : Option TargetEntry :=
  w.directory.target? p.target.type p.target.locator

/-- The grantee that a proposal names. -/
def Proposal.grantee? : Option GranteeEntry :=
  w.directory.grantee? p.grantee.type p.grantee.locator

/-- The right that a proposal names. -/
def Proposal.right? : Option Right := w.catalog.get? p.right

end Naming

/-- What a change of grants has to satisfy. -/
inductive Condition
  /-- The target is found. -/
  | target
  /-- The grantee is found, or a revocation may do without it. -/
  | grantee
  /-- The right is found. -/
  | right
  /-- The right for administering another domain goes to domains, and no other admin right does. -/
  | crossDomain
  /-- Any other admin right goes to a delegated admin or an admin group. -/
  | standing
  /-- An admin right may be granted on targets of this type. -/
  | targetType
  /-- An actor may pass the right on. -/
  | delegation
  /-- An actor holds the right not only in part. -/
  | wholeness
  /-- The grant is stored on the target. -/
  | listed
deriving DecidableEq

/-- The reason for which a change is refused that does not satisfy a condition.  A condition on
entries or on a right that are not found is not at fault. -/
def Condition.refusal? (config : Config) (w : World Directory Catalog Script Ledger) (p : Proposal)
    (μ : Mutation) : Condition → Option RequestError
  | .target => refusalOf (w.directory.lookupTarget p.target.type p.target.locator)
  | .grantee =>
    match w.directory.lookupGrantee p.grantee.type p.grantee.locator, μ with
    | .ok _, _ => none
    | .error cause, .grant => some (.ofService cause)
    | .error cause, .revoke =>
      if config.orphanRevoke then
        match p.grantee.locator.mode with
        | .byId => none
        | .byName => some (.invalid (.granteeNameUnresolvable p.grantee.locator.key))
      else some (.ofService cause)
  | .right => refusalOf (Catalog.right w.catalog p.right)
  | .crossDomain => do
    let g ← p.grantee? w
    let r ← p.right? w
    if r.isUserRight then none
    else if r.isCrossDomainAdmin then
      if g.type = .domain then none else some (.invalid (.crossDomainNeedsDomain r.name g.type))
    else if g.type = .domain then some (.invalid (.domainNotAllowed r.name)) else none
  | .standing => do
    let g ← p.grantee? w
    let r ← p.right? w
    if r.isUserRight ∨ r.isCrossDomainAdmin ∨ g.type = .user ∧ g.admin = .delegated ∨
        g.type = .group ∧ g.admin = .group then none
    else some (.invalid (.granteeNotAdmin g.name))
  | .targetType => do
    let t ← p.target? w
    let r ← p.right? w
    if r.isUserRight ∨ r.grantableOn t.type then none
    else some (.invalid (.targetTypeNotGrantable r.name t.type r.targetTypesText))
  | .delegation => do
    let actor ← p.actor
    let _ ← p.grantee? w
    let r ← p.right? w
    if w.evaluator.mayDelegate actor r then none else some (.denied (μ.denial r.name))
  | .wholeness => do
    let actor ← p.actor
    let t ← p.target? w
    let _ ← p.grantee? w
    let r ← p.right? w
    refusalOf (w.evaluator.checkPartiallyDenied actor t r)
  | .listed => do
    let c ← p.change? Catalog.service w μ
    if c.grant ∈ w.store.on c.target then none else some (.noSuchGrant c.grant)

namespace Mutation

/-- The conditions on what a change names.  A revocation depends neither on what the grantee may
hold nor on its standing. -/
def eligibility : Mutation → List Condition
  | .grant => [.crossDomain, .standing, .targetType]
  | .revoke => [.targetType]

/-- The conditions that are checked before the store is called, in their order. -/
def clearance (μ : Mutation) : List Condition :=
  [.target] ++ ([.grantee] ++ ([.right] ++ (μ.eligibility ++ [.delegation, .wholeness])))

/-- All conditions of a change, in their order. -/
def conditions : Mutation → List Condition
  | .grant => clearance .grant
  | .revoke => clearance .revoke ++ [.listed]

end Mutation

/-! ## The conditions of each step -/

namespace Engine

variable {supports : Bool} {config : Config} {w v : World Directory Catalog Script Ledger}
  {p : Proposal} {μ : Mutation} {t : TargetEntry} {g : GranteeEntry} {entry : Option GranteeEntry}
  {r : Right} {actor : GranteeEntry}

/-- What an admin right may be granted to are the conditions on the grantee and on its standing. -/
theorem invalidOf_checkGrantee (hg : p.grantee? w = some g) (hr : p.right? w = some r)
    (hadmin : r.isUserRight = false) :
    invalidOf (r.checkGrantee g) =
      [Condition.crossDomain, .standing].findSome? (Condition.refusal? config w p μ) := by
  have hmay := g.mayHoldAdminRights_iff
  unfold Right.checkGrantee Condition.refusal?
  by_cases hcross : r.isCrossDomainAdmin
  · by_cases hdomain : g.type = .domain <;> simp [hg, hr, hadmin, hcross, hdomain]
  · by_cases hdomain : g.type = .domain
    · simp [hg, hr, hadmin, hcross, hdomain]
    · by_cases hstanding : g.mayHoldAdminRights
      · simp [hg, hr, hadmin, hcross, hdomain, hstanding, hmay.mp hstanding]
      · simp [hg, hr, hadmin, hcross, hdomain, hstanding, mt hmay.mpr hstanding]

/-- What an admin right may be granted on is the condition on the type of the target. -/
theorem invalidOf_checkTarget (ht : p.target? w = some t) (hr : p.right? w = some r)
    (hadmin : r.isUserRight = false) :
    invalidOf (r.checkTarget t.type) =
      [Condition.targetType].findSome? (Condition.refusal? config w p μ) := by
  unfold Condition.refusal? Right.checkTarget
  by_cases hgrantable : r.grantableOn t.type <;> simp [ht, hr, hadmin, hgrantable]

/-- A grant that is not eligible is refused for the first of these conditions that fails. -/
theorem invalidOf_checkEligibility_grant (ht : p.target? w = some t) (hg : p.grantee? w = some g)
    (hr : p.right? w = some r) :
    invalidOf (checkEligibility t (some g) r .grant) =
      [Condition.crossDomain, .standing, .targetType].findSome?
        (Condition.refusal? config w p .grant) := by
  cases huser : r.isUserRight with
  | true => simp [Condition.refusal?, checkEligibility, ht, hg, hr, huser]
  | false =>
    rw [checkEligibility_grant_of_admin huser, invalidOf_bind, invalidOf_checkGrantee hg hr huser,
      invalidOf_checkTarget ht hr huser]
    exact List.findSome?_append.symm

/-- A revocation that is not eligible is refused for the type of the target. -/
theorem invalidOf_checkEligibility_revoke (ht : p.target? w = some t) (hr : p.right? w = some r) :
    invalidOf (checkEligibility t entry r .revoke) =
      [Condition.targetType].findSome? (Condition.refusal? config w p .revoke) := by
  cases huser : r.isUserRight with
  | true => simp [Condition.refusal?, checkEligibility, ht, hr, huser]
  | false =>
    unfold checkEligibility
    rw [huser]
    exact invalidOf_checkTarget ht hr huser

/-- An actor that may not pass the right on is refused for the first of these conditions that
fails. -/
theorem refusal_checkDelegation (hevaluator : v.evaluator = w.evaluator)
    (hactor : p.actor = some actor) (ht : p.target? w = some t) (hg : p.grantee? w = some g)
    (hr : p.right? w = some r) :
    refusal ((scripted supports Ledger.service config).checkDelegation actor t r μ) v =
      [Condition.delegation, .wholeness].findSome? (Condition.refusal? config w p μ) := by
  let engine := scripted supports Ledger.service config
  have hanswer : ((Request.evaluator (engine.evaluator.canPerform actor t r true none) :
      Request Directory Catalog Script Ledger _).run v).1 =
        .ok ⟨w.evaluator.mayDelegate actor r, none⟩ := by
    rw [← hevaluator]
    rfl
  refine (refusal_bind (refusal_of_ok hanswer) fun decision hdecision => ?_).trans Option.none_or
  obtain rfl := Except.ok.inj (hanswer.symm.trans hdecision)
  cases hmay : w.evaluator.mayDelegate actor r with
  | true =>
    have hwhole : [Condition.delegation, .wholeness].findSome? (Condition.refusal? config w p μ) =
        refusalOf (w.evaluator.checkPartiallyDenied actor t r) := by
      simp [Condition.refusal?, hactor, ht, hg, hr, hmay]
    rw [hwhole, ← hevaluator]
    exact refusal_of_orRefuse rfl
  | false =>
    have hdenied : [Condition.delegation, .wholeness].findSome? (Condition.refusal? config w p μ) =
        some (.denied (μ.denial r.name)) := by
      simp [Condition.refusal?, hactor, hg, hr, hmay]
    rw [hdenied]
    rfl

/-- The checks before a change are refused for the first of these conditions that fails. -/
theorem refusal_verify {eligibility : List Condition} (hevaluator : v.evaluator = w.evaluator)
    (ht : p.target? w = some t) (hg : p.grantee? w = entry) (hr : p.right? w = some r)
    (heligible : invalidOf (checkEligibility t entry r μ) =
      eligibility.findSome? (Condition.refusal? config w p μ)) :
    refusal ((scripted supports Ledger.service config).verify p.actor t entry r μ) v =
      (eligibility ++ [Condition.delegation, .wholeness]).findSome?
        (Condition.refusal? config w p μ) := by
  rw [List.findSome?_append, ← heligible, ← refusal_check]
  refine refusal_bind rfl fun _ _ => ?_
  rw [world_check]
  cases hactor : p.actor with
  | none => simp [Condition.refusal?, hactor, refusal]
  | some actor =>
    cases entry with
    | none => simp [Condition.refusal?, hactor, hg, refusal]
    | some g => exact refusal_checkDelegation hevaluator hactor ht hg hr

/-- The lookup of the grantee is refused if the condition on the grantee fails. -/
theorem refusal_findGrantee :
    refusal ((scripted supports Ledger.service config).findGrantee μ p.grantee) w =
      Condition.grantee.refusal? config w p μ := by
  let engine := scripted supports Ledger.service config
  simp only [Condition.refusal?]
  cases μ with
  | grant =>
    have hlookup : refusal (engine.lookupGrantee p.grantee) w =
        refusalOf (w.directory.lookupGrantee p.grantee.type p.grantee.locator) :=
      refusal_of_orRefuse rfl
    unfold findGrantee
    rw [refusal_bind hlookup fun _ _ => refusal_of_ok rfl, Option.or_none]
    cases w.directory.lookupGrantee p.grantee.type p.grantee.locator <;> rfl
  | revoke =>
    have hasked : ((tryDirectory (engine.directory.lookupGrantee p.grantee.type p.grantee.locator) :
        Request Directory Catalog Script Ledger _).run w).1 =
          .ok (w.directory.lookupGrantee p.grantee.type p.grantee.locator) := rfl
    have hconfig : (scripted supports Ledger.service config).config = config := rfl
    refine (refusal_bind (refusal_of_ok hasked) fun result hresult => ?_).trans Option.none_or
    obtain rfl := Except.ok.inj (hasked.symm.trans hresult)
    cases hlookup : w.directory.lookupGrantee p.grantee.type p.grantee.locator with
    | ok g => rfl
    | error cause =>
      -- In memory the grantee is missing, and the failure bears the key under which it was sought.
      obtain rfl := Directory.eq_of_lookupGrantee_error hlookup
      simp only [Directory.isMissingGrantee_missingGrantee, Bool.true_and, hconfig]
      cases config.orphanRevoke with
      | false => rfl
      | true => cases hmode : p.grantee.locator.mode <;> rfl

/-! ## Changes -/

/-- What is found for the grantee of a change is the grantee that the proposal names, if there is
one. -/
theorem grantee?_of_granteeFound {granteeId : String}
    (h : GranteeFound (scripted supports Ledger.service config) w.directory p.grantee μ entry
      granteeId) : p.grantee? w = entry := by
  cases h with
  | present found => exact Directory.lookupGrantee_eq_ok_iff.mp found
  | gone missing =>
    cases hg : p.grantee? w with
    | none => rfl
    | some g =>
      have hfound := Directory.lookupGrantee_eq_ok_iff.mpr hg
      have hmissing : w.directory.lookupGrantee p.grantee.type p.grantee.locator = .error _ :=
        missing
      rw [hfound] at hmissing
      cases hmissing

/-- Only a revocation goes on without a grantee, and it is not asked for one. -/
theorem invalidOf_checkEligibility {granteeId : String}
    (h : GranteeFound (scripted supports Ledger.service config) w.directory p.grantee μ entry
      granteeId) (ht : p.target? w = some t) (hr : p.right? w = some r) :
    invalidOf (checkEligibility t entry r μ) =
      μ.eligibility.findSome? (Condition.refusal? config w p μ) := by
  cases μ with
  | revoke => exact invalidOf_checkEligibility_revoke ht hr
  | grant =>
    have hg := grantee?_of_granteeFound h
    cases h with
    | present found => exact invalidOf_checkEligibility_grant ht hg hr

/-- A clearance is refused for the first of its conditions that fails. -/
theorem refusal_clear (supports : Bool) (config : Config)
    (w : World Directory Catalog Script Ledger) (μ : Mutation) (p : Proposal) :
    refusal ((scripted supports Ledger.service config).clear μ p) w =
      μ.clearance.findSome? (Condition.refusal? config w p μ) := by
  let engine := scripted supports Ledger.service config
  -- The lookups leave alone what the later conditions are about.
  have keepsCatalog : ((engine.findGrantee μ p.grantee).run w).2.catalog = w.catalog :=
    engine.keeps_findGrantee (fun _ _ => rfl) (fun _ _ => rfl) μ p.grantee w
  have keepsEvaluator : ((engine.findGrantee μ p.grantee).run w).2.evaluator = w.evaluator :=
    engine.keeps_findGrantee (fun _ _ => rfl) (fun _ _ => rfl) μ p.grantee w
  have htarget : refusal (engine.lookupTarget p.target) w =
      [Condition.target].findSome? (Condition.refusal? config w p μ) := by
    rw [List.findSome?_singleton]
    exact refusal_of_orRefuse rfl
  have hgrantee : refusal (engine.findGrantee μ p.grantee) w =
      [Condition.grantee].findSome? (Condition.refusal? config w p μ) := by
    rw [List.findSome?_singleton]
    exact refusal_findGrantee
  have hright : refusal (engine.right p.right) ((engine.findGrantee μ p.grantee).run w).2 =
      [Condition.right].findSome? (Condition.refusal? config w p μ) := by
    rw [List.findSome?_singleton, Condition.refusal?, ← keepsCatalog]
    exact refusal_of_orRefuse rfl
  unfold Mutation.clearance
  iterate 3 rw [List.findSome?_append]
  refine refusal_bind htarget fun t ht => ?_
  refine refusal_bind hgrantee fun found hfound => ?_
  refine refusal_bind hright fun r hr => ?_
  obtain ⟨entry, granteeId⟩ := found
  have hnamed : p.target? w = some t :=
    Directory.lookupTarget_eq_ok_iff.mp (engine.lookupTarget_eq_ok_iff.mp ht)
  rw [findGrantee_eq_ok_iff] at hfound
  have hcalled : p.right? w = some r := by
    have hlookup : ((engine.catalog.right p.right).run
        ((engine.findGrantee μ p.grantee).run w).2.catalog).1 = .ok r :=
      engine.right_eq_ok_iff.mp hr
    rw [keepsCatalog] at hlookup
    exact Catalog.right_eq_ok_iff.mp hlookup
  refine (refusal_bind ?_ fun _ _ => refusal_of_ok rfl).trans Option.or_none
  exact refusal_verify keepsEvaluator hnamed (grantee?_of_granteeFound hfound) hcalled
    (invalidOf_checkEligibility hfound hnamed hcalled)

/-- What a clearance lets pass is refused for the last condition only, that the grant is stored. -/
theorem refusal?_listed {grant : Grant}
    (h : Cleared (scripted supports Ledger.service config) w .revoke p t entry r grant) :
    Mutation.revoke.conditions.findSome? (Condition.refusal? config w p .revoke) =
      if grant ∈ w.store.on t.key then none else some (.noSuchGrant grant) := by
  have hcleared := refusal_clear supports config w .revoke p
  rw [refusal_of_ok ((clear_eq_ok_iff _).mpr ⟨entry, r, h⟩)] at hcleared
  have hchange : p.change? Catalog.service w .revoke = some ⟨.revoke, t.key, grant⟩ :=
    Cleared.change?_eq h
  unfold Mutation.conditions
  rw [List.findSome?_append, ← hcleared, Option.none_or, List.findSome?_singleton,
    Condition.refusal?, hchange]
  rfl

/-- A change is refused for the first of its conditions that fails. -/
theorem refusal_mutate (supports : Bool) (config : Config)
    (w : World Directory Catalog Script Ledger) (μ : Mutation) (p : Proposal) :
    refusal ((scripted supports Ledger.service config).mutate μ p) w =
      μ.conditions.findSome? (Condition.refusal? config w p μ) := by
  have hclear := refusal_clear supports config w μ p
  have houtcome := outcome_mutate Catalog.service (Script.service supports) config w μ p
  generalize hresult :
    (((inMemory Catalog.service (Script.service supports) config).mutate μ p).run w).1 = result
      at houtcome
  generalize (((inMemory Catalog.service (Script.service supports) config).mutate μ p).run
    w).2.store = l at houtcome
  cases houtcome with
  | refused hrefused =>
    have hfirst := hclear.symm.trans (refusal_of_error hrefused)
    refine (refusal_of_error hresult).trans ?_
    cases μ with
    | grant => exact hfirst.symm
    | revoke =>
      unfold Mutation.conditions
      rw [List.findSome?_append, hfirst, Option.some_or]
  | added cleared =>
    have hpassed := hclear.symm.trans
      (refusal_of_ok ((clear_eq_ok_iff _).mpr ⟨_, _, cleared⟩))
    exact (refusal_of_ok hresult).trans hpassed.symm
  | removed cleared listed =>
    refine (refusal_of_ok hresult).trans ?_
    rw [refusal?_listed cleared, if_pos listed]
  | absent cleared unlisted =>
    refine (refusal_of_error hresult).trans ?_
    rw [refusal?_listed cleared, if_neg unlisted]

end Engine

end Delegation
