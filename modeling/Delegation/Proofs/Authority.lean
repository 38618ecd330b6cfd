/-
# Who changes grants

An admin can only hand out or take away what it may pass on itself.  The one exception is a grant
whose grantee is gone: anybody may clean it up.

## Key constructions

* `Authorized` — the evaluator lets an actor pass on the right that a request names.
* `Directory.Gone` — the grantee of a grant is not in the directory.
* `EvaluatorService.Denies` — the evaluator lets an actor pass on no right at all.
* `Session.Denied` — the next step changes grants for such an actor only.

## Key results

* `Cleared.authorized_or_gone` — what a clearance that an actor asked for establishes.
* `change_requires_delegation` — no change of grants without leave to delegate, in one request and
  along a session.
-/
import Delegation.Proofs.Session
import Delegation.Rehearsal.Sample
import Delegation.Script
import Mathlib.Data.List.Induction

namespace Delegation

variable {C E : Type}

/-- In the world `w`, the evaluator lets the actor pass on the right that a request names on the
target that it names. -/
def Authorized (catalog : CatalogService C) (evaluator : EvaluatorService E)
    (w : World Directory C E Ledger) (actor : GranteeEntry) (target : TargetAddress)
    (right : String) : Prop :=
  ∃ t r, w.directory.lookupTarget target.type target.locator = .ok t ∧
    ((catalog.right right).run w.catalog).1 = .ok r ∧
    evaluator.Delegates w.evaluator actor t r

/-- The grantee of a grant is not found by its identifier. -/
def Directory.Gone (d : Directory) (g : Grant) : Prop :=
  ∃ kind key, d.lookupGrantee g.granteeType ⟨.byId, g.granteeId⟩ = .error (.notFound kind key)

/-- In its state `e`, the evaluator does not let the actor pass on any right on any target. -/
def EvaluatorService.Denies (evaluator : EvaluatorService E) (e : E) (actor : GranteeEntry) :
    Prop :=
  ∀ target right, ¬ evaluator.Delegates e actor target right

variable {catalog : CatalogService C} {evaluator : EvaluatorService E} {config : Config}
  {w : World Directory C E Ledger} {actor : GranteeEntry}

/-! ## One change -/

/-- A clearance that an actor asked for establishes that the actor is authorized, or that a grant is
to be revoked whose grantee is gone. -/
theorem Cleared.authorized_or_gone {μ : Mutation} {p : Proposal} {target : TargetEntry}
    {entry : Option GranteeEntry} {right : Right} {grant : Grant}
    (h : Cleared (.inMemory catalog evaluator config) w μ p target entry right grant)
    (hactor : p.actor = some actor) :
    Authorized catalog evaluator w actor p.target p.right ∨
      μ = .revoke ∧ w.directory.Gone grant := by
  rcases h.granteeLookup_cases with ⟨g, rfl, -, -⟩ | ⟨-, rfl, hloc, hmissing⟩
  · exact .inl ⟨target, right, h.lookupTarget_eq_ok, h.right_found, h.delegated actor hactor rfl⟩
  · refine .inr ⟨rfl, Directory.missingGrantee p.grantee.type, grant.granteeId, ?_⟩
    rw [h.granteeType_eq, ← hloc]
    exact hmissing

namespace Outcome

variable {p : Proposal} {result : Except RequestError (List Grant)} {l : Ledger} {k : TargetKey}
  {g : Grant}

/-- Granting changes the ledger for an authorized actor only. -/
theorem authorized_of_ne (h : Outcome (.inMemory catalog evaluator config) w p .grant result l)
    (hactor : p.actor = some actor) (hne : l ≠ w.store) :
    Authorized catalog evaluator w actor p.target p.right := by
  cases h with
  | refused refusal => exact absurd rfl hne
  | added cleared =>
    rcases cleared.authorized_or_gone hactor with h | ⟨h, -⟩
    · exact h
    · cases h

/-- Revoking adds nothing. -/
theorem subset_of_revoke {engine : Engine Directory C E Ledger}
    (h : Outcome engine w p .revoke result l) (hg : g ∈ l.on k) : g ∈ w.store.on k := by
  rcases h.mem_cases hg with hold | ⟨hμ, -⟩
  · exact hold
  · cases hμ

/-- Revoking removes a grant for an authorized actor, or one whose grantee is gone. -/
theorem authorized_or_gone (h : Outcome (.inMemory catalog evaluator config) w p .revoke result l)
    (hactor : p.actor = some actor) (hg : g ∈ w.store.on k) (hremoved : g ∉ l.on k) :
    Authorized catalog evaluator w actor p.target p.right ∨ w.directory.Gone g := by
  cases h with
  | refused refusal => exact absurd hg hremoved
  | absent cleared unlisted => exact absurd hg hremoved
  | @removed target _ _ grant cleared listed =>
    rw [Ledger.mem_on_erase] at hremoved
    -- The one grant that is removed is the one that was cleared.
    by_cases heq : k = target.key ∧ g = grant
    · rw [heq.2]
      rcases cleared.authorized_or_gone hactor with h | ⟨-, h⟩
      · exact .inl h
      · exact .inr h
    · exact absurd ⟨hg, heq⟩ hremoved

end Outcome

/-- Where the evaluator denies an actor all rights, the actor is authorized for nothing. -/
theorem not_authorized_of_denies (h : evaluator.Denies w.evaluator actor) {target : TargetAddress}
    {right : String} : ¬ Authorized catalog evaluator w actor target right := by
  rintro ⟨t, r, -, -, hdelegates⟩
  exact h t r hdelegates

/-- A script denies an actor all rights if it lets the actor pass on none. -/
theorem Script.denies_of_notMem {script : Script} (b : Bool)
    (h : ∀ right, ⟨actor.id, right⟩ ∉ script.delegable) :
    (Script.service b).Denies script actor := by
  rintro target right ⟨⟨decision, hd, hallowed⟩, -⟩
  cases hd
  exact h right.name (List.contains_iff_mem.mp hallowed)

/-! ## Along a session -/

namespace Session

variable {s : Session C E} {st : Step C E} {k : TargetKey} {g : Grant}

/-- If the next step of a session changes grants, then for an actor that is denied all rights. -/
def Denied (evaluator : EvaluatorService E) (s : Session C E) (actor : GranteeEntry)
    (st : Step C E) : Prop :=
  ∀ μ p, st = .mutate μ p → p.actor = some actor ∧ evaluator.Denies s.world.evaluator actor

/-- A grant that a denied actor asks for changes nothing. -/
theorem grants_step_grant_of_denied {p : Proposal} (hactor : p.actor = some actor)
    (hdenies : evaluator.Denies s.world.evaluator actor) (k : TargetKey) :
    (s.step catalog evaluator (.mutate .grant p)).grants k = s.grants k := by
  by_cases hstore : (s.step catalog evaluator (.mutate .grant p)).world.store = s.world.store
  · exact congrArg (Ledger.on · k) hstore
  · have ho := s.outcome_step catalog evaluator .grant p
    exact absurd (ho.authorized_of_ne hactor hstore) (not_authorized_of_denies hdenies)

/-- A step of a denied actor, or of its surroundings, adds no grant. -/
theorem grants_step_subset (h : s.Denied evaluator actor st)
    (hg : g ∈ (s.step catalog evaluator st).grants k) : g ∈ s.grants k := by
  rcases s.mutates_or_keeps_grants catalog evaluator st with ⟨μ, p, rfl⟩ | hkeep
  · have ho := s.outcome_step catalog evaluator μ p
    obtain ⟨hactor, hdenies⟩ := h μ p rfl
    cases μ with
    | revoke => exact ho.subset_of_revoke hg
    | grant =>
      rw [grants_step_grant_of_denied hactor hdenies] at hg
      exact hg
  · rw [hkeep] at hg
    exact hg

/-- A step of a denied actor, or of its surroundings, removes a grant only if its grantee is
gone. -/
theorem gone_of_step (h : s.Denied evaluator actor st) (hg : g ∈ s.grants k)
    (hremoved : g ∉ (s.step catalog evaluator st).grants k) : s.world.directory.Gone g := by
  rcases s.mutates_or_keeps_grants catalog evaluator st with ⟨μ, p, rfl⟩ | hkeep
  · have ho := s.outcome_step catalog evaluator μ p
    obtain ⟨hactor, hdenies⟩ := h μ p rfl
    cases μ with
    | revoke =>
      rcases ho.authorized_or_gone hactor hg hremoved with hauthorized | hgone
      · exact absurd hauthorized (not_authorized_of_denies hdenies)
      · exact hgone
    | grant =>
      rw [grants_step_grant_of_denied hactor hdenies] at hremoved
      exact absurd hg hremoved
  · rw [hkeep] at hremoved
    exact absurd hg hremoved

/-- Along a session in which every change is asked for by an actor that is denied all rights, no
grant is added. -/
theorem grants_run_subset {steps : List (Step C E)}
    (h : ∀ before st, before ++ [st] <+: steps →
      (s.run catalog evaluator before).Denied evaluator actor st)
    (hg : g ∈ (s.run catalog evaluator steps).grants k) : g ∈ s.grants k := by
  -- From the end, so that the last step is taken where the steps before it have led.
  induction steps using List.reverseRecOn with
  | nil => exact hg
  | append_singleton steps st ih =>
    rw [run_concat] at hg
    refine ih (fun before st' hpre => ?_) ?_
    · exact h before st' (hpre.trans (List.prefix_append _ _))
    · exact grants_step_subset (h steps st (List.prefix_refl _)) hg

end Session

/-- **No change without leave to delegate.**  A grant that an actor asks for changes what is stored
only if the evaluator lets the actor pass on the right on the target, and a revocation removes a
stored grant only then, or if the grantee of that grant is gone.  Hence, along a session in which
all changes are asked for by an actor that is denied every right, no grant is added, and each grant
that is removed is one whose grantee is gone at that moment. -/
theorem change_requires_delegation (catalog : CatalogService C) (evaluator : EvaluatorService E)
    (actor : GranteeEntry) :
    (∀ (config : Config) (w : World Directory C E Ledger) (target : TargetAddress)
        (grantee : GranteeAddress) (right : String) (modifier : Option Modifier),
      let engine := Engine.inMemory catalog evaluator config
      let granted := (engine.grant (some actor) target grantee right modifier).run w
      let revoked := (engine.revoke (some actor) target grantee right modifier).run w
      ((∃ k, granted.2.store.on k ≠ w.store.on k) →
        Authorized catalog evaluator w actor target right) ∧
      ∀ k g, g ∈ w.store.on k → g ∉ revoked.2.store.on k →
        Authorized catalog evaluator w actor target right ∨ w.directory.Gone g) ∧
    ∀ (s : Session C E) (steps : List (Session.Step C E)),
      (∀ before st, before ++ [st] <+: steps →
        (s.run catalog evaluator before).Denied evaluator actor st) →
      (∀ k g, g ∈ (s.run catalog evaluator steps).grants k → g ∈ s.grants k) ∧
      ∀ before st, before ++ [st] <+: steps → ∀ k g,
        g ∈ (s.run catalog evaluator before).grants k →
        g ∉ (s.run catalog evaluator (before ++ [st])).grants k →
        (s.run catalog evaluator before).world.directory.Gone g := by
  refine ⟨fun config w target grantee right modifier => ⟨?_, ?_⟩, fun s steps hdenied =>
    ⟨fun k g hg => Session.grants_run_subset hdenied hg, ?_⟩⟩
  · rintro ⟨k, hk⟩
    let p : Proposal := ⟨some actor, target, grantee, right, modifier⟩
    have ho := Engine.outcome_mutate catalog evaluator config w .grant p
    rw [Engine.run_mutate_grant] at ho
    exact ho.authorized_of_ne rfl fun heq => hk (by rw [heq])
  · intro k g hg hremoved
    let p : Proposal := ⟨some actor, target, grantee, right, modifier⟩
    have ho := Engine.outcome_mutate catalog evaluator config w .revoke p
    exact ho.authorized_or_gone rfl hg hremoved
  · intro before st hpre k g hg hremoved
    rw [Session.run_concat] at hremoved
    exact Session.gone_of_step (hdenied before st hpre) hg hremoved

/-- An admin without any right revokes the grant of an account that is gone. -/
theorem denied_admin_cleans_up :
    let grant : Grant := ⟨.user, "u-gone", "createAccount", none⟩
    let s : Session Catalog Script := ⟨⟨true, true⟩, Sample.directory, Sample.catalog, .empty,
      Ledger.add .empty ⟨.domain, "d-example"⟩ [grant], []⟩
    let p : Proposal := ⟨some Sample.delegatedAdmin, ⟨.domain, .byId, "d-example"⟩,
      ⟨.user, .byId, "u-gone"⟩, "createAccount", none⟩
    grant ∈ s.grants ⟨.domain, "d-example"⟩ ∧
      (s.run Catalog.service (Script.service true) [.mutate .revoke p]).grants
        ⟨.domain, "d-example"⟩ = [] ∧
      s.world.directory.Gone grant := by
  intro grant s p
  have hdenied (before : List (Session.Step Catalog Script)) (st : Session.Step Catalog Script)
      (hpre : before ++ [st] <+: [.mutate .revoke p]) :
      (s.run Catalog.service (Script.service true) before).Denied (Script.service true)
        Sample.delegatedAdmin st := by
    obtain ⟨after, hsteps⟩ := hpre
    rw [List.append_assoc, List.append_eq_singleton_iff] at hsteps
    rcases hsteps with ⟨rfl, hst⟩ | ⟨-, hst⟩
    · obtain rfl : st = .mutate .revoke p := (List.cons.inj hst).1
      intro μ p' hp
      cases hp
      exact ⟨rfl, Script.denies_of_notMem true fun right => List.not_mem_nil⟩
    · cases hst
  have hrun := (change_requires_delegation Catalog.service (Script.service true)
    Sample.delegatedAdmin).2 s [.mutate .revoke p] hdenied
  have hlisted : grant ∈ s.grants ⟨.domain, "d-example"⟩ := by decide
  have hremoved : (s.run Catalog.service (Script.service true) [.mutate .revoke p]).grants
      ⟨.domain, "d-example"⟩ = [] := by decide
  refine ⟨hlisted, hremoved, hrun.2 [] _ (List.prefix_refl _) _ _ hlisted ?_⟩
  rw [List.nil_append, hremoved]
  exact List.not_mem_nil

end Delegation
