/-
# When the evaluator is asked

A change of grants asks the evaluator for one decision at most, and only after everything that can
be settled without the evaluator.

## Key constructions

* `Engine.scripted` — an engine in memory with a scripted evaluator.
* `Questioned` — a change comes to the question whether its actor may pass the right on.

## Key results

* `Engine.decisionCount_mutate` — a change asks for a decision iff it comes to the question.
* `Engine.asksOnce_answer` — a query asks for one decision at most.
-/
import Delegation.Proofs.Session
import Delegation.Script

namespace Delegation

open Request

/-! ## Checks that do not come to the question -/

section Unasked

variable {D C E S : Type} (engine : Engine D C E S) {w : World D C E S}

/-- Without an actor, without a grantee or for an ineligible change, the evaluator is not asked. -/
theorem Engine.evaluator_verify {actor : Option GranteeEntry} {target : TargetEntry}
    {entry : Option GranteeEntry} {right : Right} {μ : Mutation}
    (h : ∀ a g, actor = some a → entry = some g → checkEligibility target entry right μ ≠ .ok ()) :
    ((engine.verify actor target entry right μ).run w).2.evaluator = w.evaluator := by
  unfold verify
  cases hc : checkEligibility target entry right μ with
  | error reason => rfl
  | ok =>
    cases actor with
    | none => rfl
    | some a =>
      cases entry with
      | none => rfl
      | some g => exact absurd hc (h a g rfl rfl)

end Unasked

/-! ## Scripted engines -/

variable {S : Type}

/-- An engine over entries and rights in memory, with a scripted evaluator. -/
def Engine.scripted (supportsDelegation : Bool) (store : StoreService S) (config : Config) :
    Engine Directory Catalog Script S where
  directory := Directory.service
  catalog := Catalog.service
  evaluator := Script.service supportsDelegation
  store := store
  config := config

/-- A change comes to the question whether its actor may pass the right on: there is an actor, the
target, the grantee and the right are found, and the change is eligible. -/
def Questioned (w : World Directory Catalog Script S) (μ : Mutation) (p : Proposal) : Prop :=
  ∃ actor t entry r, p.actor = some actor ∧
    w.directory.lookupTarget p.target.type p.target.locator = .ok t ∧
    w.directory.lookupGrantee p.grantee.type p.grantee.locator = .ok entry ∧
    w.catalog.right p.right = .ok r ∧
    Engine.checkEligibility t (some entry) r μ = .ok ()

namespace Engine

variable (supports : Bool) (store : StoreService S) (config : Config)
  {w : World Directory Catalog Script S} {μ : Mutation} {p : Proposal}

/-- The question is one decision of the evaluator. -/
theorem decisionCount_checkDelegation (actor : GranteeEntry) (target : TargetEntry) (right : Right)
    (w : World Directory Catalog Script S) :
    (((scripted supports store config).checkDelegation actor target right μ).run
      w).2.evaluator.decisionCount = w.evaluator.decisionCount + 1 := by
  unfold checkDelegation
  have hanswer : ((Request.evaluator ((scripted supports store config).evaluator.canPerform actor
      target right true none) : Request Directory Catalog Script S _).run w).1 =
        .ok (w.evaluator.decision actor target right true) := rfl
  rw [run_bind_of_ok hanswer]
  split <;> rfl

/-- The question is answered by leave or by a denial. -/
theorem refusedOnly_denied_checkDelegation (actor : GranteeEntry) (target : TargetEntry)
    (right : Right) (μ : Mutation) :
    RefusedOnly (fun e => ∃ reason, e = .denied reason)
      ((scripted supports store config).checkDelegation actor target right μ) := by
  refine .bind (fun w e h => ?_) fun decision => ?_
  · cases h
  · split
    · exact .bind (.note _) fun _ => .throw ⟨_, rfl⟩
    · intro w e h
      have hcheck : orRefuse (w.evaluator.checkPartiallyDenied actor target right) = .error e := h
      unfold Script.checkPartiallyDenied at hcheck
      split at hcheck
      · cases hcheck
        exact ⟨_, rfl⟩
      · cases hcheck

/-- A clearance that comes to the question asks it once, and is refused by a denial only. -/
theorem decisionCount_clear_of_questioned (h : Questioned w μ p) :
    (((scripted supports store config).clear μ p).run w).2.evaluator.decisionCount =
        w.evaluator.decisionCount + 1 ∧
      ∀ e, (((scripted supports store config).clear μ p).run w).1 = .error e →
        ∃ reason, e = .denied reason := by
  obtain ⟨actor, t, entry, r, ha, ht, hg, hr, he⟩ := h
  let engine := scripted supports store config
  -- The worlds after the target, the grantee and the right have been looked up.
  let w₁ := ((engine.lookupTarget p.target).run w).2
  let w₂ := ((engine.findGrantee μ p.grantee).run w₁).2
  let w₃ := ((engine.right p.right).run w₂).2
  have hcatalog : w₂.catalog = w.catalog :=
    engine.keeps_findGrantee (fun _ _ => rfl) (fun _ _ => rfl) μ p.grantee w₁
  have hevaluator : w₃.evaluator = w.evaluator :=
    engine.keeps_findGrantee (fun _ _ => rfl) (fun _ _ => rfl) μ p.grantee w₁
  have htarget : ((engine.lookupTarget p.target).run w).1 = .ok t :=
    engine.lookupTarget_eq_ok_iff.mpr ht
  have hgrantee : ((engine.findGrantee μ p.grantee).run w₁).1 = .ok (some entry, entry.id) :=
    engine.findGrantee_eq_ok_iff.mpr (.present hg)
  have hright : ((engine.right p.right).run w₂).1 = .ok r := by
    rw [right_eq_ok_iff, hcatalog]
    exact hr
  have hverify : (engine.verify p.actor t (some entry) r μ).run w₃ =
      (engine.checkDelegation actor t r μ).run w₃ := by
    unfold verify
    rw [he, ha]
    rfl
  have hclear : (engine.clear μ p).run w = (engine.checkDelegation actor t r μ >>= fun _ =>
      pure (t, ⟨p.grantee.type, entry.id, r.name, p.modifier⟩)).run w₃ := by
    unfold clear
    rw [run_bind_of_ok htarget, run_bind_of_ok hgrantee, run_bind_of_ok hright, run_bind, hverify,
      ← run_bind]
  show ((engine.clear μ p).run w).2.evaluator.decisionCount = _ ∧
    ∀ e, ((engine.clear μ p).run w).1 = .error e → _
  rw [hclear]
  refine ⟨?_, fun e he => ?_⟩
  · rw [world_bind_pure, decisionCount_checkDelegation, hevaluator]
  · have hdenied := refusedOnly_denied_checkDelegation supports store config actor t r μ
    exact (hdenied.bind fun _ => .pure _) w₃ e he

/-- A clearance that does not come to the question leaves the evaluator alone. -/
theorem evaluator_clear_of_not_questioned (h : ¬ Questioned w μ p) :
    (((scripted supports store config).clear μ p).run w).2.evaluator = w.evaluator := by
  let engine := scripted supports store config
  let w₁ := ((engine.lookupTarget p.target).run w).2
  let w₂ := ((engine.findGrantee μ p.grantee).run w₁).2
  let w₃ := ((engine.right p.right).run w₂).2
  have hcatalog : w₂.catalog = w.catalog :=
    engine.keeps_findGrantee (fun _ _ => rfl) (fun _ _ => rfl) μ p.grantee w₁
  have hevaluator : w₂.evaluator = w.evaluator :=
    engine.keeps_findGrantee (fun _ _ => rfl) (fun _ _ => rfl) μ p.grantee w₁
  show ((engine.clear μ p).run w).2.evaluator = w.evaluator
  unfold clear
  -- A lookup that fails ends the clearance.  If none does, the checks end it or do not ask.
  cases ht : ((engine.lookupTarget p.target).run w).1 with
  | error e =>
    rw [run_bind_of_error ht]
    rfl
  | ok t =>
    rw [run_bind_of_ok ht]
    cases hg : ((engine.findGrantee μ p.grantee).run w₁).1 with
    | error e =>
      rw [run_bind_of_error hg]
      exact hevaluator
    | ok found =>
      obtain ⟨entry, granteeId⟩ := found
      rw [run_bind_of_ok hg]
      cases hr : ((engine.right p.right).run w₂).1 with
      | error e =>
        rw [run_bind_of_error hr]
        exact hevaluator
      | ok r =>
        rw [run_bind_of_ok hr, world_bind_pure]
        refine (engine.evaluator_verify fun a g ha hentry he => h ?_).trans hevaluator
        rw [right_eq_ok_iff, hcatalog] at hr
        rw [findGrantee_eq_ok_iff] at hg
        subst hentry
        cases hg with
        | present hfound =>
          exact ⟨a, t, g, r, ha, engine.lookupTarget_eq_ok_iff.mp ht, hfound, hr, he⟩

/-- A change asks for one decision if it comes to the question, and for none otherwise. -/
theorem decisionCount_mutate (w : World Directory Catalog Script S) (μ : Mutation) (p : Proposal) :
    (Questioned w μ p →
      (((scripted supports store config).mutate μ p).run w).2.evaluator.decisionCount =
        w.evaluator.decisionCount + 1) ∧
    (¬ Questioned w μ p →
      (((scripted supports store config).mutate μ p).run w).2.evaluator.decisionCount =
        w.evaluator.decisionCount) := by
  rw [evaluator_mutate]
  refine ⟨fun h => (decisionCount_clear_of_questioned supports store config h).1, fun h => ?_⟩
  rw [evaluator_clear_of_not_questioned supports store config h]

end Engine

/-! ## Queries -/

section Queries

variable {α β : Type}

/-- The request asks the evaluator for one decision at most. -/
def AsksOnce (m : Request Directory Catalog Script S α) : Prop :=
  ∀ w, (m.run w).2.evaluator.decisionCount = w.evaluator.decisionCount ∨
    (m.run w).2.evaluator.decisionCount = w.evaluator.decisionCount + 1

namespace AsksOnce

variable {m : Request Directory Catalog Script S α} {f : α → Request Directory Catalog Script S β}

theorem of_keeps (h : Keeps World.evaluator m) : AsksOnce m :=
  fun w => .inl (congrArg Script.decisionCount (h w))

/-- Nothing is asked before the one decision. -/
theorem after (hm : Keeps World.evaluator m) (hf : ∀ a, AsksOnce (f a)) : AsksOnce (m >>= f) := by
  intro w
  have hw : (m.run w).2.evaluator = w.evaluator := hm w
  cases h : (m.run w).1 with
  | ok a =>
    rw [run_bind_of_ok h, ← hw]
    exact hf a _
  | error e =>
    rw [run_bind_of_error h, hw]
    exact .inl rfl

/-- Nothing is asked after the one decision. -/
theorem before (hm : AsksOnce m) (hf : ∀ a, Keeps World.evaluator (f a)) : AsksOnce (m >>= f) := by
  intro w
  cases h : (m.run w).1 with
  | ok a =>
    rw [run_bind_of_ok h, hf a]
    exact hm w
  | error e =>
    rw [run_bind_of_error h]
    exact hm w

end AsksOnce

namespace Engine

variable (supports : Bool) (store : StoreService S) (config : Config)

/-- A query asks for one decision at most. -/
theorem asksOnce_answer (q : Query) : AsksOnce ((scripted supports store config).answer q) := by
  let engine := scripted supports store config
  have keepsTarget (a : TargetAddress) : Keeps World.evaluator (engine.lookupTarget a) :=
    .directory (fun _ _ => rfl) _
  have keepsAccount (a : Locator) : Keeps World.evaluator (engine.lookupAccount a) :=
    engine.keeps_lookupAccount (fun _ _ => rfl) a
  have keepsEvaluate (t : TargetEntry) (g : GranteeEntry) (expandSet expandGet : Bool) :
      Keeps World.evaluator (engine.evaluate t g expandSet expandGet) :=
    .bind (fun _ => rfl) fun _ => .pure _
  cases q with
  | right name => exact .of_keeps (.bind (.catalog (fun _ _ => rfl) _) fun _ => .pure _)
  | allRights type =>
    exact .of_keeps (.bind (.bind (.catalog (fun _ _ => rfl) _) fun _ => .pure _) fun _ => .pure _)
  | effectiveRights target account expandSet expandGet =>
    exact .of_keeps (.bind (.bind (keepsTarget _) fun _ => .bind (keepsAccount _) fun _ =>
      keepsEvaluate _ _ _ _) fun _ => .pure _)
  | creationRights type domain classOfService account =>
    exact .of_keeps (.bind (.bind (.directory (fun _ _ => rfl) _) fun _ =>
      .bind (keepsAccount _) fun _ => keepsEvaluate _ _ _ _) fun _ => .pure _)
  | allEffectiveRights grantee expandSet expandGet =>
    exact .of_keeps (.bind (.bind (.directory (fun _ _ => rfl) _) fun _ =>
      .bind (fun _ => rfl) fun _ => keeps_collect (fun _ _ => rfl) _ _) fun _ => .pure _)
  | grants target =>
    exact .of_keeps (.bind (engine.keeps_grants (fun _ _ => rfl)
      (fun _ => .store (fun _ _ => rfl) _) _) fun _ => .pure _)
  | checkRight target account right attrs =>
    have asksDecision (a : GranteeEntry) (t : TargetEntry) (r : Right) :
        AsksOnce (Request.evaluator (engine.evaluator.canPerform a t r false attrs) :
          Request Directory Catalog Script S Decision) := fun _ => .inr rfl
    refine .before ?_ fun _ => .pure _
    refine .after (keepsTarget _) fun t => .after (keepsAccount _) fun a => ?_
    refine .after (.catalog (fun _ _ => rfl) _) fun r => ?_
    split
    · exact fun w => .inl rfl
    · refine .before (asksDecision a t r) fun decision => ?_
      split
      · exact .bind (.note (fun _ _ => rfl) _) fun _ => .pure _
      · exact .pure _

end Engine

end Queries

end Delegation
