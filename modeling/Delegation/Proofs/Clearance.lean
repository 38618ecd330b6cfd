/-
# Clearance

Granting and revoking have one shape: a clearance that looks everything up and runs all checks,
and then a single call of the store.  The clearance of both is described here once, in both
directions: what it has established when it lets a change pass, and that it lets pass whatever
satisfies this.

## Key constructions

* `Proposal` — what a request to change grants names.
* `Engine.mutate` — granting and revoking as one request.
* `Engine.clear`, `Engine.carryOut` — everything before the call of the store, and the call.
* `EvaluatorService.Delegates` — the evaluator's two answers that let an actor pass a right on.
* `GranteeFound` — how the grantee of a proposal was found.
* `Cleared` — what a clearance establishes.

## Key results

* `Engine.mutate_eq` — a change is its clearance and then its one call of the store.
* `Engine.keeps_clear`, `Engine.spares_store` — a clearance leaves the store alone.
* `Engine.refusedOnly_clear` — the reasons for which a clearance is refused.
* `Engine.clear_eq_ok_iff` — a clearance passes exactly what it establishes.
* `Engine.mutate_cases` — a change is refused by its clearance, or it is a call of the store.
* `Engine.run_carryOut_grant`, `Engine.run_carryOut_revoke` — what the call of the store comes to.
-/
import Delegation.Engine.Mutation
import Delegation.Proofs.Request

namespace Delegation

/-- What a request to change grants names: who asks, for which target and grantee, and for which
right under which modifier. -/
structure Proposal where
  actor : Option GranteeEntry
  target : TargetAddress
  grantee : GranteeAddress
  right : String
  modifier : Option Modifier

namespace Engine

variable {D C E S : Type} (engine : Engine D C E S)

/-- Grants or revokes a right, and returns the grants that were removed. -/
def mutate (μ : Mutation) (p : Proposal) : Request D C E S (List Grant) :=
  match μ with
  | .grant => do
    engine.grant p.actor p.target p.grantee p.right p.modifier
    return []
  | .revoke => engine.revoke p.actor p.target p.grantee p.right p.modifier

/-- Finds the grantee of a change, with the identifier under which its grants are stored. -/
def findGrantee : Mutation → GranteeAddress → Request D C E S (Option GranteeEntry × String)
  | .grant, grantee => do
    let entry ← engine.lookupGrantee grantee
    return (some entry, entry.id)
  | .revoke, grantee => engine.lookupRevoked grantee

/-- Everything that comes before the call of the store: the target on which a grant is to be
added or removed, and this grant. -/
def clear (μ : Mutation) (p : Proposal) : Request D C E S (TargetEntry × Grant) := do
  let target ← engine.lookupTarget p.target
  let (entry, granteeId) ← engine.findGrantee μ p.grantee
  let right ← engine.right p.right
  engine.verify p.actor target entry right μ
  return (target, ⟨p.grantee.type, granteeId, right.name, p.modifier⟩)

/-- The call of the store, with what follows it. -/
def carryOut (target : TargetEntry) (grant : Grant) : Mutation → Request D C E S (List Grant)
  | .grant => do
    .store (engine.store.addGrants target [grant])
    Request.note [.granted target.type target.name grant]
    return []
  | .revoke => do
    let removed ← .store (engine.store.removeGrants target [grant])
    if removed.isEmpty then throw (.noSuchGrant grant)
    Request.note [.revoked target.type target.name grant]
    return removed

/-- A change is its clearance and then its one call of the store. -/
theorem mutate_eq (μ : Mutation) (p : Proposal) :
    engine.mutate μ p = (do
      let (target, grant) ← engine.clear μ p
      engine.carryOut target grant μ) := by
  cases μ with
  | grant => simp [mutate, grant, clear, findGrantee, carryOut]
  | revoke => simp [mutate, revoke, clear, findGrantee, carryOut]

/-- Granting as a change does what granting does, and removes nothing. -/
theorem run_mutate_grant (p : Proposal) (w : World D C E S) :
    let granted := (engine.grant p.actor p.target p.grantee p.right p.modifier).run w
    (engine.mutate .grant p).run w = (granted.1.map fun _ => [], granted.2) := by
  intro granted
  unfold mutate
  cases h : granted.1 with
  | ok => exact Request.run_bind_of_ok h
  | error e => exact Request.run_bind_of_error h

end Engine

/-! ## What a clearance keeps -/

section Keeping

open Request

variable {D C E S γ : Type}

/-- A part of the world that does not depend on the directory, the evaluator and the log, and that
the catalog keeps when it is asked for a right. -/
structure Engine.Spares (engine : Engine D C E S) (part : World D C E S → γ) : Prop where
  directory : ∀ w d, part { w with directory := d } = part w
  evaluator : ∀ w e, part { w with evaluator := e } = part w
  log : ∀ w log, part { w with log := log } = part w
  right : ∀ name, Keeps part (.catalog (engine.catalog.right name))

namespace Engine

variable (engine : Engine D C E S) {part : World D C E S → γ}

/-- Looking the grantee of a change up keeps what a lookup in the directory keeps. -/
theorem keeps_findGrantee_of_lookup
    (hd : ∀ type loc, Keeps part (.directory (engine.directory.lookupGrantee type loc)))
    (hl : ∀ w log, part { w with log := log } = part w) (μ : Mutation) (a : GranteeAddress) :
    Keeps part (engine.findGrantee μ a) := by
  cases μ with
  | grant => exact .bind (hd _ _) fun _ => .pure _
  | revoke =>
    refine .bind (fun w => hd _ _ w) fun result => ?_
    split
    · exact .pure _
    · split
      · refine .bind (.note hl _) fun _ => ?_
        cases a.locator.mode with
        | byId => exact .pure _
        | byName => exact .throw _
      · exact .throw _
    · exact .throw _

theorem keeps_findGrantee (hd : ∀ w d, part { w with directory := d } = part w)
    (hl : ∀ w log, part { w with log := log } = part w) (μ : Mutation) (a : GranteeAddress) :
    Keeps part (engine.findGrantee μ a) :=
  engine.keeps_findGrantee_of_lookup (fun _ _ => .directory hd _) hl μ a

theorem keeps_verify (he : ∀ w e, part { w with evaluator := e } = part w)
    (hl : ∀ w log, part { w with log := log } = part w) (actor : Option GranteeEntry)
    (target : TargetEntry) (entry : Option GranteeEntry) (right : Right) (μ : Mutation) :
    Keeps part (engine.verify actor target entry right μ) := by
  refine .bind (.check _) fun _ => ?_
  split
  · refine .bind (.evaluator he _) fun decision => ?_
    split
    · exact .bind (.note hl _) fun _ => .throw _
    · exact .evaluator he _
  · exact .pure _

/-- Whether a clearance passes or not, it leaves alone what all its steps spare. -/
theorem keeps_clear (h : engine.Spares part) (μ : Mutation) (p : Proposal) :
    Keeps part (engine.clear μ p) := by
  refine .bind (.directory h.directory _) fun target => ?_
  refine .bind (engine.keeps_findGrantee h.directory h.log _ _) fun found => ?_
  refine .bind (h.right _) fun right => ?_
  exact .bind (engine.keeps_verify h.evaluator h.log _ _ _ _ _) fun _ => .pure _

theorem keeps_carryOut (hs : ∀ w s, part { w with store := s } = part w)
    (hl : ∀ w log, part { w with log := log } = part w) (target : TargetEntry) (grant : Grant)
    (μ : Mutation) : Keeps part (engine.carryOut target grant μ) := by
  cases μ with
  | grant => exact .bind (.store hs _) fun _ => .bind (.note hl _) fun _ => .pure _
  | revoke =>
    refine .bind (.store hs _) fun removed => ?_
    split
    · exact .bind (.throw _) fun _ => .bind (.note hl _) fun _ => .pure _
    · exact .bind (.note hl _) fun _ => .pure _

/-- A change leaves alone what its clearance and its call of the store spare. -/
theorem keeps_mutate (h : engine.Spares part) (hs : ∀ w s, part { w with store := s } = part w)
    (μ : Mutation) (p : Proposal) : Keeps part (engine.mutate μ p) := by
  rw [mutate_eq]
  exact .bind (engine.keeps_clear h μ p) fun _ => engine.keeps_carryOut hs h.log _ _ _

/-- The evaluator is asked by the clearance only. -/
theorem evaluator_mutate (μ : Mutation) (p : Proposal) (w : World D C E S) :
    ((engine.mutate μ p).run w).2.evaluator = ((engine.clear μ p).run w).2.evaluator := by
  rw [mutate_eq]
  cases hc : ((engine.clear μ p).run w).1 with
  | error e => rw [run_bind_of_error hc]
  | ok pair =>
    rw [run_bind_of_ok hc]
    exact engine.keeps_carryOut (fun _ _ => rfl) (fun _ _ => rfl) _ _ _ _

/-- A clearance does not touch the store. -/
theorem spares_store : engine.Spares World.store where
  directory := fun _ _ => rfl
  evaluator := fun _ _ => rfl
  log := fun _ _ => rfl
  right := fun _ => .catalog (fun _ _ => rfl) _

end Engine

end Keeping

/-! ## Why a clearance is refused -/

section Refusing

open Request

variable {D C E S : Type} (engine : Engine D C E S) {P : RequestError → Prop}

namespace Engine

theorem refusedOnly_findGrantee (hs : ∀ cause, P (.ofService cause))
    (hi : ∀ reason, P (.invalid reason)) (μ : Mutation) (a : GranteeAddress) :
    RefusedOnly P (engine.findGrantee μ a) := by
  cases μ with
  | grant => exact .bind (.directory hs _) fun _ => .pure _
  | revoke =>
    refine .bind (.tryDirectory _) fun result => ?_
    split
    · exact .pure _
    next kind key =>
      split
      · refine .bind (.note _) fun _ => ?_
        cases a.locator.mode with
        | byId => exact .pure _
        | byName => exact .throw (hi _)
      · exact .throw (hs (.notFound kind key))
    · exact .throw (hs _)

theorem refusedOnly_checkDelegation (hs : ∀ cause, P (.ofService cause))
    (hd : ∀ reason, P (.denied reason)) (actor : GranteeEntry) (target : TargetEntry)
    (right : Right) (μ : Mutation) :
    RefusedOnly P (engine.checkDelegation actor target right μ) := by
  refine .bind (.evaluator hs _) fun decision => ?_
  split
  · exact .bind (.note _) fun _ => .throw (hd _)
  · exact .evaluator hs _

/-- A clearance is refused for a failure of a service, an invalid request or a denial. -/
theorem refusedOnly_clear (hs : ∀ cause, P (.ofService cause)) (hi : ∀ reason, P (.invalid reason))
    (hd : ∀ reason, P (.denied reason)) (μ : Mutation) (p : Proposal) :
    RefusedOnly P (engine.clear μ p) := by
  refine .bind (.directory hs _) fun target => ?_
  refine .bind (engine.refusedOnly_findGrantee hs hi _ _) fun found => ?_
  refine .bind (.catalog hs _) fun right => ?_
  refine .bind (.bind (.check hi _) fun _ => ?_) fun _ => .pure _
  split
  · exact engine.refusedOnly_checkDelegation hs hd _ _ _ _
  · exact .pure _

end Engine

end Refusing

/-! ## What a clearance establishes -/

section Establishing

variable {D C E S : Type}

/-- The evaluator's two answers in the state `e` that let an actor pass on a right on a target:
the actor may do so, and it holds the right not only in part. -/
def EvaluatorService.Delegates (evaluator : EvaluatorService E) (e : E) (actor : GranteeEntry)
    (target : TargetEntry) (right : Right) : Prop :=
  (∃ decision, ((evaluator.canPerform actor target right true none).run e).1 = .ok decision ∧
    decision.allowed = true) ∧
  ((evaluator.checkPartiallyDenied actor target right).run
    ((evaluator.canPerform actor target right true none).run e).2).1 = .ok ()

/-- How the grantee of a change is found in the state `d` of the directory, with the identifier
under which its grants are stored.  Only a revocation can address a grantee that is gone. -/
inductive GranteeFound (engine : Engine D C E S) (d : D) (a : GranteeAddress) :
    Mutation → Option GranteeEntry → String → Prop
  | present {μ : Mutation} {entry : GranteeEntry}
      (found : ((engine.directory.lookupGrantee a.type a.locator).run d).1 = .ok entry) :
      GranteeFound engine d a μ (some entry) entry.id
  | gone {granteeId : String} {kind : MissingKind} {key : String}
      (missing : ((engine.directory.lookupGrantee a.type a.locator).run d).1 =
        .error (.notFound kind key))
      (isMissing : kind.isMissingGrantee = true) (configured : engine.config.orphanRevoke = true)
      (literal : a.locator = ⟨.byId, granteeId⟩) :
      GranteeFound engine d a .revoke none granteeId

/-- The grantee of a grant is always an entry. -/
theorem GranteeFound.exists_of_grant {engine : Engine D C E S} {d : D} {a : GranteeAddress}
    {entry : Option GranteeEntry} {granteeId : String}
    (h : GranteeFound engine d a .grant entry granteeId) :
    ∃ g, entry = some g ∧ granteeId = g.id ∧
      ((engine.directory.lookupGrantee a.type a.locator).run d).1 = .ok g := by
  cases h with
  | present found => exact ⟨_, rfl, rfl, found⟩

/-- What a clearance establishes about the target, the grantee, the right and the grant of a
proposal.  The grantee is looked up in the state in which the directory is after it has been asked
for the target; the catalog and the evaluator are asked in the states that they start in. -/
structure Cleared (engine : Engine D C E S) (w : World D C E S) (μ : Mutation) (p : Proposal)
    (target : TargetEntry) (entry : Option GranteeEntry) (right : Right) (grant : Grant) :
    Prop where
  target_found :
    ((engine.directory.lookupTarget p.target.type p.target.locator).run w.directory).1 = .ok target
  grantee_found :
    GranteeFound engine
      ((engine.directory.lookupTarget p.target.type p.target.locator).run w.directory).2 p.grantee
      μ entry grant.granteeId
  right_found : ((engine.catalog.right p.right).run w.catalog).1 = .ok right
  eligible : Engine.checkEligibility target entry right μ = .ok ()
  /-- An actor that asks has been checked, unless the grantee is gone. -/
  delegated : ∀ actor, p.actor = some actor → entry.isSome →
    engine.evaluator.Delegates w.evaluator actor target right
  grant_eq : grant = ⟨p.grantee.type, grant.granteeId, right.name, p.modifier⟩

end Establishing

/-! ## What a clearance passes -/

namespace Engine

open Request

variable {D C E S : Type} (engine : Engine D C E S) {w : World D C E S}

theorem lookupTarget_eq_ok_iff {a : TargetAddress} {target : TargetEntry} :
    ((engine.lookupTarget a).run w).1 = .ok target ↔
      ((engine.directory.lookupTarget a.type a.locator).run w.directory).1 = .ok target := by
  unfold lookupTarget
  rw [run_directory, orRefuse_eq_ok_iff]

theorem right_eq_ok_iff {name : String} {right : Right} :
    ((engine.right name).run w).1 = .ok right ↔
      ((engine.catalog.right name).run w.catalog).1 = .ok right := by
  unfold Engine.right
  rw [run_catalog, orRefuse_eq_ok_iff]

theorem checkDelegation_eq_ok_iff {actor : GranteeEntry} {target : TargetEntry} {right : Right}
    {μ : Mutation} :
    ((engine.checkDelegation actor target right μ).run w).1 = .ok () ↔
      engine.evaluator.Delegates w.evaluator actor target right := by
  unfold checkDelegation EvaluatorService.Delegates
  rw [bind_eq_ok_iff]
  simp only [run_evaluator, orRefuse_eq_ok_iff]
  constructor
  · rintro ⟨decision, hd, h⟩
    cases ha : decision.allowed with
    | true =>
      rw [ha] at h
      exact ⟨⟨decision, hd, ha⟩, orRefuse_eq_ok_iff.mp h⟩
    | false =>
      rw [ha] at h
      cases h
  · rintro ⟨⟨decision, hd, ha⟩, h⟩
    refine ⟨decision, hd, ?_⟩
    rw [ha]
    exact orRefuse_eq_ok_iff.mpr h

/-- The checks pass iff the change is eligible and an actor may make it. -/
theorem verify_eq_ok_iff {actor : Option GranteeEntry} {target : TargetEntry}
    {entry : Option GranteeEntry} {right : Right} {μ : Mutation} :
    ((engine.verify actor target entry right μ).run w).1 = .ok () ↔
      checkEligibility target entry right μ = .ok () ∧
        ∀ a, actor = some a → entry.isSome →
          engine.evaluator.Delegates w.evaluator a target right := by
  unfold verify
  rw [bind_eq_ok_iff]
  simp only [check_eq_ok_iff, world_check]
  constructor
  · rintro ⟨⟨⟩, hc, h⟩
    refine ⟨hc, ?_⟩
    rintro a rfl hs
    obtain ⟨g, rfl⟩ := Option.isSome_iff_exists.mp hs
    exact engine.checkDelegation_eq_ok_iff.mp h
  · rintro ⟨hc, hd⟩
    refine ⟨(), hc, ?_⟩
    -- The question is put for an actor and a grantee that is there, and passes in all other cases.
    cases actor with
    | none => rfl
    | some a =>
      cases entry with
      | none => rfl
      | some g => exact engine.checkDelegation_eq_ok_iff.mpr (hd a rfl rfl)

/-- The grantee of a revocation is found among the entries, or it is gone and was addressed by its
identifier. -/
theorem lookupRevoked_eq_ok_iff {a : GranteeAddress} {entry : Option GranteeEntry}
    {granteeId : String} :
    ((engine.lookupRevoked a).run w).1 = .ok (entry, granteeId) ↔
      GranteeFound engine w.directory a .revoke entry granteeId := by
  unfold lookupRevoked
  rw [run_bind]
  simp only [run_tryDirectory]
  constructor
  · intro h
    cases hl : ((engine.directory.lookupGrantee a.type a.locator).run w.directory).1 with
    | ok g =>
      rw [hl] at h
      cases h
      exact .present hl
    -- Of the failures, only a missing grantee is forgiven, and only under its identifier.
    | error e =>
      rw [hl] at h
      cases e with
      | notFound kind key =>
        by_cases hc : (kind.isMissingGrantee && engine.config.orphanRevoke) = true
        · simp only [hc, if_true] at h
          rw [Bool.and_eq_true] at hc
          rcases hloc : a.locator with ⟨_ | _, literal⟩
          · rw [hloc] at h
            cases h
            exact .gone hl hc.1 hc.2 hloc
          · rw [hloc] at h
            cases h
        · simp only [hc] at h
          cases h
      | _ => cases h
  · rintro (hl | ⟨hl, hk, ho, hloc⟩)
    · rw [hl]
      rfl
    · rw [hl]
      simp only [hk, ho, hloc]
      rfl

theorem findGrantee_eq_ok_iff {μ : Mutation} {a : GranteeAddress} {entry : Option GranteeEntry}
    {granteeId : String} :
    ((engine.findGrantee μ a).run w).1 = .ok (entry, granteeId) ↔
      GranteeFound engine w.directory a μ entry granteeId := by
  cases μ with
  | revoke => exact engine.lookupRevoked_eq_ok_iff
  | grant =>
    unfold findGrantee lookupGrantee
    rw [bind_eq_ok_iff]
    simp only [run_directory, orRefuse_eq_ok_iff]
    constructor
    · rintro ⟨g, hg, h⟩
      cases h
      exact .present hg
    · rintro ⟨hg⟩
      exact ⟨_, hg, rfl⟩

/-- A clearance passes exactly what it establishes. -/
theorem clear_eq_ok_iff {μ : Mutation} {p : Proposal} {target : TargetEntry} {grant : Grant} :
    ((engine.clear μ p).run w).1 = .ok (target, grant) ↔
      ∃ entry right, Cleared engine w μ p target entry right grant := by
  unfold clear
  simp only [bind_eq_ok_iff]
  -- The directory and the catalog are asked before the evaluator, and neither call touches what
  -- the next one is about.
  have keepsCatalog (found : World D C E S) :
      ((engine.findGrantee μ p.grantee).run found).2.catalog = found.catalog :=
    engine.keeps_findGrantee (fun _ _ => rfl) (fun _ _ => rfl) μ p.grantee found
  have keepsEvaluator (found : World D C E S) :
      ((engine.findGrantee μ p.grantee).run found).2.evaluator = found.evaluator :=
    engine.keeps_findGrantee (fun _ _ => rfl) (fun _ _ => rfl) μ p.grantee found
  have keepsRight (v : World D C E S) :
      ((engine.right p.right).run v).2.evaluator = v.evaluator := rfl
  have keepsTarget : ((engine.lookupTarget p.target).run w).2 =
      { w with directory :=
          ((engine.directory.lookupTarget p.target.type p.target.locator).run w.directory).2 } :=
    rfl
  simp only [lookupTarget_eq_ok_iff, findGrantee_eq_ok_iff, right_eq_ok_iff, keepsTarget,
    keepsCatalog, Prod.exists]
  constructor
  · rintro ⟨t, ht, entry, granteeId, hg, r, hr, ⟨⟩, hv, h⟩
    rw [verify_eq_ok_iff, keepsRight, keepsEvaluator] at hv
    cases h
    exact ⟨entry, r, ht, hg, hr, hv.1, hv.2, rfl⟩
  · rintro ⟨entry, r, ht, hg, hr, hc, hd, hgrant⟩
    refine ⟨target, ht, entry, grant.granteeId, hg, r, hr, (), ?_, ?_⟩
    · rw [verify_eq_ok_iff, keepsRight, keepsEvaluator]
      exact ⟨hc, hd⟩
    · rw [hgrant]
      rfl

/-! ## The call of the store -/

/-- A change is refused by its clearance, or it is a call of the store as it was. -/
theorem mutate_cases (μ : Mutation) (p : Proposal) (w : World D C E S) :
    (∃ e v, (engine.clear μ p).run w = (.error e, v) ∧ v.store = w.store ∧
      (engine.mutate μ p).run w = (.error e, v)) ∨
    ∃ target grant v, (engine.clear μ p).run w = (.ok (target, grant), v) ∧ v.store = w.store ∧
      (engine.mutate μ p).run w = (engine.carryOut target grant μ).run v := by
  have hkeep : ((engine.clear μ p).run w).2.store = w.store :=
    engine.keeps_clear engine.spares_store μ p w
  rw [mutate_eq]
  cases hc : ((engine.clear μ p).run w).1 with
  | error e =>
    rw [run_bind_of_error hc]
    exact .inl ⟨e, _, Prod.ext hc rfl, hkeep, rfl⟩
  | ok pair =>
    rw [run_bind_of_ok hc]
    exact .inr ⟨pair.1, pair.2, _, Prod.ext hc rfl, hkeep, rfl⟩

/-- What adding a grant comes to when the store adds it. -/
theorem run_carryOut_grant {target : TargetEntry} {grant : Grant} {s : S}
    (h : (engine.store.addGrants target [grant]).run w.store = (.ok (), s)) :
    (engine.carryOut target grant .grant).run w =
      (.ok [], { w with
        store := s
        log := w.log ++ [.granted target.type target.name grant] }) := by
  unfold carryOut
  rw [run_bind, run_store, h]
  rfl

/-- What removing a grant comes to when the store answers: nothing removed is no such grant. -/
theorem run_carryOut_revoke {target : TargetEntry} {grant : Grant} {removed : List Grant} {s : S}
    (h : (engine.store.removeGrants target [grant]).run w.store = (.ok removed, s)) :
    (engine.carryOut target grant .revoke).run w =
      if removed.isEmpty then (.error (.noSuchGrant grant), { w with store := s })
      else (.ok removed, { w with
        store := s
        log := w.log ++ [.revoked target.type target.name grant] }) := by
  unfold carryOut
  rw [run_bind, run_store, h]
  cases removed <;> rfl

end Engine

end Delegation
