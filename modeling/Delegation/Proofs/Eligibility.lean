/-
# Stored grants are eligible

The rules that decide who may hold a right and where are checked when a grant is made.  As long as
no right is redefined, they hold of every stored grant at every later moment, whatever happens to
the entries that it names.

## Key constructions

* `Catalog.Extends` — a catalog keeps all rights of another one as they are.
* `Grant.EligibleOn` — the rules for a grant on targets of a type.
* `Right.Grantable` — the rules for granting a right to a grantee on targets of a type.
* `Session.Eligible` — every stored grant keeps the rules.

## Key results

* `checkEligibility_grant_eq_ok_iff`, `checkEligibility_revoke_eq_ok_iff` — a grant is eligible iff
  it keeps the rules, and a revocation iff the right may be granted on the target.
* `Session.Eligible.step`, `Session.Eligible.run` — steps keep all stored grants eligible.
* `stored_grants_are_eligible` — starting without grants, all stored grants are always eligible.
-/
import Delegation.Proofs.Session
import Delegation.Rehearsal.Sample
import Delegation.Script
import Mathlib.Data.List.Chain

namespace Delegation

/-! ## The rules -/

/-- The catalog `c'` has all rights of the catalog `c` as they are in `c`. -/
def Catalog.Extends (c c' : Catalog) : Prop :=
  ∀ name r, c.get? name = some r → c'.get? name = some r

/-- Adding a right under a new name redefines none. -/
theorem Catalog.extends_insert {c : Catalog} {r : Right} (h : c.get? r.name = none) :
    c.Extends (c.insert r) := by
  intro name r' hr'
  have hne : ¬ r.name = name := by
    rintro rfl
    rw [h] at hr'
    cases hr'
  rw [Keyed.get?_insert, if_neg hne]
  exact hr'

/-- A grant names a right of the catalog, and unless this is a user right, it may be granted on
targets of the type, to a domain if it is the right for administering another domain, and else to an
account or a group. -/
def Grant.EligibleOn (g : Grant) (c : Catalog) (type : TargetType) : Prop :=
  ∃ r, c.get? g.right = some r ∧ (r.isUserRight = false →
    r.grantableOn type ∧
      if r.isCrossDomainAdmin then g.granteeType = .domain
      else g.granteeType = .user ∨ g.granteeType = .group)

theorem Grant.EligibleOn.mono {g : Grant} {c c' : Catalog} {type : TargetType}
    (h : g.EligibleOn c type) (hext : c.Extends c') : g.EligibleOn c' type := by
  obtain ⟨r, hr, hrules⟩ := h
  exact ⟨r, hext g.right r hr, hrules⟩

/-! ## The checks -/

/-- Who may be given admin rights. -/
theorem GranteeEntry.mayHoldAdminRights_iff {g : GranteeEntry} :
    g.mayHoldAdminRights ↔
      g.type = .user ∧ g.admin = .delegated ∨ g.type = .group ∧ g.admin = .group := by
  unfold mayHoldAdminRights
  cases g.type <;> simp

/-- The rules for granting a right to a grantee on targets of a type.  A user right is granted to
anybody on anything. -/
def Right.Grantable (r : Right) (g : GranteeEntry) (type : TargetType) : Prop :=
  r.isUserRight ∨
    (if r.isCrossDomainAdmin then g.type = .domain
      else g.type = .user ∧ g.admin = .delegated ∨ g.type = .group ∧ g.admin = .group) ∧
    r.grantableOn type

theorem Right.checkTarget_eq_ok_iff {r : Right} {type : TargetType} :
    r.checkTarget type = .ok () ↔ r.grantableOn type := by
  unfold checkTarget
  split
  next hgrantable => exact iff_of_true rfl hgrantable
  next hgrantable => exact iff_of_false nofun hgrantable

theorem Right.checkGrantee_eq_ok_iff {r : Right} {g : GranteeEntry} :
    r.checkGrantee g = .ok () ↔
      if r.isCrossDomainAdmin then g.type = .domain
      else g.type = .user ∧ g.admin = .delegated ∨ g.type = .group ∧ g.admin = .group := by
  rw [← g.mayHoldAdminRights_iff]
  unfold checkGrantee
  by_cases hcross : r.isCrossDomainAdmin
  · by_cases hdomain : g.type = .domain <;> simp [hcross, hdomain]
  · by_cases hdomain : g.type = .domain
    · simp [hcross, hdomain, GranteeEntry.mayHoldAdminRights]
    · cases hmay : g.mayHoldAdminRights <;> simp [hcross, hdomain]

/-- Of an admin right, the grantee is checked first and the target after it. -/
theorem checkEligibility_grant_of_admin {t : TargetEntry} {g : GranteeEntry} {r : Right}
    (hadmin : r.isUserRight = false) :
    Engine.checkEligibility t (some g) r .grant =
      r.checkGrantee g >>= fun _ => r.checkTarget t.type := by
  unfold Engine.checkEligibility
  rw [hadmin]
  rfl

/-- A grant is eligible iff it keeps the rules. -/
theorem checkEligibility_grant_eq_ok_iff {t : TargetEntry} {g : GranteeEntry} {r : Right} :
    Engine.checkEligibility t (some g) r .grant = .ok () ↔ r.Grantable g t.type := by
  unfold Right.Grantable
  rw [← Right.checkGrantee_eq_ok_iff, ← Right.checkTarget_eq_ok_iff]
  cases huser : r.isUserRight with
  | true =>
    unfold Engine.checkEligibility
    rw [huser]
    exact iff_of_true rfl (.inl rfl)
  | false =>
    rw [or_iff_right Bool.false_ne_true, checkEligibility_grant_of_admin huser]
    cases r.checkGrantee g with
    | ok => exact (and_iff_right rfl).symm
    | error reason => exact iff_of_false nofun fun h => nomatch h.1

/-- A revocation is eligible iff the right may be granted on the target. -/
theorem checkEligibility_revoke_eq_ok_iff {t : TargetEntry} {entry : Option GranteeEntry}
    {r : Right} :
    Engine.checkEligibility t entry r .revoke = .ok () ↔ r.isUserRight ∨ r.grantableOn t.type := by
  rw [← Right.checkTarget_eq_ok_iff]
  unfold Engine.checkEligibility
  cases r.isUserRight with
  | true => exact iff_of_true rfl (.inl rfl)
  | false => exact (or_iff_right Bool.false_ne_true).symm

/-- What the check of a grant establishes. -/
theorem checkEligibility_grant {t : TargetEntry} {entry : GranteeEntry} {r : Right}
    (h : Engine.checkEligibility t (some entry) r .grant = .ok ())
    (hadmin : r.isUserRight = false) :
    r.grantableOn t.type ∧
      if r.isCrossDomainAdmin then entry.type = .domain
      else entry.type = .user ∨ entry.type = .group := by
  rcases checkEligibility_grant_eq_ok_iff.mp h with huser | ⟨hgrantee, htarget⟩
  · rw [hadmin] at huser
    cases huser
  · refine ⟨htarget, ?_⟩
    split
    next hcross => rwa [if_pos hcross] at hgrantee
    next hcross =>
      rw [if_neg hcross] at hgrantee
      exact hgrantee.imp And.left And.left

/-! ## One change -/

section Change

variable {E : Type} {evaluator : EvaluatorService E} {config : Config}
  {w : World Directory Catalog E Ledger} {p : Proposal} {target : TargetEntry}
  {entry : Option GranteeEntry} {right : Right} {grant : Grant}

/-- A grant that has been cleared is eligible on its target. -/
theorem Cleared.eligibleOn
    (h : Cleared (.inMemory Catalog.service evaluator config) w .grant p target entry right grant) :
    grant.EligibleOn w.catalog target.key.type := by
  have hright : w.catalog.right p.right = .ok right := h.right_found
  refine ⟨right, ?_, fun hadmin => ?_⟩
  · rw [h.grant_right, Catalog.name_of_right hright]
    exact Catalog.right_eq_ok_iff.mp hright
  · obtain ⟨g, rfl, -, hlookup⟩ := h.granteeLookup_of_grant
    -- The type that was checked is that of the entry, and the grant bears the one of the request.
    have hrules := checkEligibility_grant h.eligible hadmin
    rw [Directory.type_of_lookupGrantee hlookup, ← h.granteeType_eq] at hrules
    exact hrules

/-- A change of grants keeps all stored grants eligible. -/
theorem Outcome.eligibleOn {μ : Mutation} {result : Except RequestError (List Grant)} {l : Ledger}
    (h : Outcome (.inMemory Catalog.service evaluator config) w p μ result l)
    (hstored : ∀ k g, g ∈ w.store.on k → g.EligibleOn w.catalog k.type) {k : TargetKey} {g : Grant}
    (hg : g ∈ l.on k) : g.EligibleOn w.catalog k.type := by
  rcases h.mem_cases hg with hold | ⟨-, target, entry, right, cleared, rfl⟩
  · exact hstored k g hold
  · exact cleared.eligibleOn

end Change

/-! ## Along a session -/

namespace Session

variable {E : Type} {evaluator : EvaluatorService E} {s : Session Catalog E}

/-- The catalog that a step puts in place. -/
def Step.catalog? {C : Type} : Step C E → Option C
  | .catalog c => some c
  | _ => none

/-- Every stored grant keeps the rules of the catalog. -/
def Eligible (s : Session Catalog E) : Prop :=
  ∀ k g, g ∈ s.grants k → g.EligibleOn s.world.catalog k.type

/-- Only a step that puts a catalog in place changes the catalog. -/
theorem catalog_step (evaluator : EvaluatorService E) (s : Session Catalog E)
    (st : Step Catalog E) :
    (s.step Catalog.service evaluator st).world.catalog = st.catalog?.getD s.world.catalog := by
  have spares : (s.engine Catalog.service evaluator).Spares World.catalog :=
    ⟨fun _ _ => rfl, fun _ _ => rfl, fun _ _ => rfl, fun _ _ => rfl⟩
  cases st with
  | mutate μ p => exact Engine.keeps_mutate _ spares (fun _ _ => rfl) μ p s.world
  | ask q =>
    exact Engine.keeps_answer _ spares (fun _ => rfl) (fun _ => .store (fun _ _ => rfl) _) q s.world
  | _ => rfl

/-- A step that redefines no right keeps all stored grants eligible. -/
theorem Eligible.step (h : s.Eligible) {st : Step Catalog E}
    (hext : ∀ c, st.catalog? = some c → s.world.catalog.Extends c) :
    (s.step Catalog.service evaluator st).Eligible := by
  intro k g hg
  rw [catalog_step]
  rcases s.mutates_or_keeps_grants Catalog.service evaluator st with ⟨μ, p, rfl⟩ | hkeep
  · exact (s.outcome_step Catalog.service evaluator μ p).eligibleOn h hg
  · rw [hkeep] at hg
    have hold := h k g hg
    cases hc : st.catalog? with
    | none => exact hold
    | some c => exact hold.mono (hext c hc)

/-- Steps that redefine no right keep all stored grants eligible. -/
theorem Eligible.run (h : s.Eligible) {steps : List (Step Catalog E)}
    (hext : List.IsChain Catalog.Extends (s.world.catalog :: steps.filterMap Step.catalog?)) :
    (s.run Catalog.service evaluator steps).Eligible := by
  induction steps generalizing s with
  | nil => exact h
  | cons st steps ih =>
    have hcatalog := catalog_step evaluator s st
    -- The step puts the next catalog of the chain in place, or it keeps the catalog.
    cases hc : st.catalog? with
    | none =>
      rw [hc] at hcatalog
      rw [List.filterMap_cons_none hc] at hext
      refine ih (h.step fun c hsome => ?_) ?_
      · rw [hc] at hsome
        cases hsome
      · rw [hcatalog]
        exact hext
    | some c =>
      rw [hc] at hcatalog
      rw [List.filterMap_cons_some hc, List.isChain_cons_cons] at hext
      refine ih (h.step fun c' hsome => ?_) ?_
      · rw [hc] at hsome
        cases hsome
        exact hext.1
      · rw [hcatalog]
        exact hext.2

end Session

/-- **Stored grants are always eligible.**  In a session that starts without grants and in which no
right is redefined, every stored grant names a right of the catalog; and unless this is a user
right, the target is of a type on which the right may be granted, and the grantee is a domain if it
is the right for administering another domain, and else an account or a group. -/
theorem stored_grants_are_eligible {E : Type} (evaluator : EvaluatorService E)
    (s : Session Catalog E) (steps : List (Session.Step Catalog E))
    (hempty : s.world.store = .empty)
    (hext : List.IsChain Catalog.Extends
      (s.world.catalog :: steps.filterMap Session.Step.catalog?)) :
    let now := s.run Catalog.service evaluator steps
    ∀ k g, g ∈ now.grants k → g.EligibleOn now.world.catalog k.type := by
  have hinitial : s.Eligible := by
    intro k g hg
    unfold Session.grants at hg
    rw [hempty, Ledger.on_empty] at hg
    exact absurd hg List.not_mem_nil
  exact hinitial.run hext

/-- A grant of a right that was added to the catalog stays eligible when its grantee is gone. -/
theorem grant_of_added_right_stays_eligible :
    let c : Catalog :=
      Sample.catalog.insert (Sample.adminRight "renameDomain" "rename a domain" .preset [.domain])
    let g : Grant := ⟨.user, "u-da", "renameDomain", none⟩
    let s : Session Catalog Script :=
      ⟨⟨true, true⟩, Sample.directory, Sample.catalog, .empty, .empty, []⟩
    let now := s.run Catalog.service (Script.service true)
      [.catalog c,
        .mutate .grant ⟨none, ⟨.domain, .byId, "d-example"⟩, ⟨.user, .byName, "da@example.com"⟩,
          "renameDomain", none⟩,
        .directory (Sample.directory.removeGrantee ⟨.user, "u-da"⟩)]
    g ∈ now.grants ⟨.domain, "d-example"⟩ ∧ g.EligibleOn now.world.catalog .domain := by
  intro c g s now
  have hext : Catalog.Extends Sample.catalog c := Catalog.extends_insert (by decide)
  have hlisted : g ∈ now.grants ⟨.domain, "d-example"⟩ := by decide
  have heligible := stored_grants_are_eligible (Script.service true) s
    [.catalog c,
      .mutate .grant ⟨none, ⟨.domain, .byId, "d-example"⟩, ⟨.user, .byName, "da@example.com"⟩,
        "renameDomain", none⟩,
      .directory (Sample.directory.removeGrantee ⟨.user, "u-da"⟩)] rfl
    (List.isChain_cons_cons.mpr ⟨hext, .singleton _⟩)
  exact ⟨hlisted, heligible _ g hlisted⟩

end Delegation
