/-
# Refused changes leave no trace

A change of grants calls the store once, after everything else.  So a store that records its calls
hears of a change only if it is carried out, or if it is a revocation that finds nothing to remove.

## Key constructions

* `Recording` — what a change comes to, with what it leaves in a recorded ledger.
* `Footprint` — what a change with a certain result leaves of the world.

## Key results

* `Engine.recording_mutate` — each change comes to one of these things.
* `refused_changes_leave_no_trace` — a refused change leaves the grants and the calls of the store
  alone, and it asks the evaluator only if everything else has been settled.
-/
import Delegation.Proofs.Question
import Delegation.Rehearsal.Sample
import Delegation.Store.Recorder

namespace Delegation

open Request

/-! ## What a recorded store hears -/

section Recording

variable {D C E : Type}

/-- What a change of grants comes to, and the recorded ledger that it leaves behind. -/
inductive Recording (engine : Engine D C E (Recorded Ledger)) (w : World D C E (Recorded Ledger))
    (p : Proposal) : Mutation → Except RequestError (List Grant) → Recorded Ledger → Prop
  /-- The clearance is refused, and the store is not called. -/
  | refused {μ : Mutation} {e : RequestError} (refusal : ((engine.clear μ p).run w).1 = .error e) :
      Recording engine w p μ (.error e) w.store
  /-- The grant is added. -/
  | added {t : TargetEntry} {g : Grant} (cleared : ((engine.clear .grant p).run w).1 = .ok (t, g)) :
      Recording engine w p .grant (.ok [])
        ⟨w.store.store.add t.key [g], w.store.calls ++ [.add t.type t.name [g]]⟩
  /-- The grant is removed. -/
  | removed {t : TargetEntry} {g : Grant}
      (cleared : ((engine.clear .revoke p).run w).1 = .ok (t, g)) :
      Recording engine w p .revoke (.ok [g])
        ⟨w.store.store.erase ⟨t.key, g⟩, w.store.calls ++ [.remove t.type t.name [g]]⟩
  /-- There is no such grant to remove. -/
  | absent {t : TargetEntry} {g : Grant}
      (cleared : ((engine.clear .revoke p).run w).1 = .ok (t, g)) :
      Recording engine w p .revoke (.error (.noSuchGrant g))
        ⟨w.store.store, w.store.calls ++ [.remove t.type t.name [g]]⟩

namespace Engine

/-- Only the call of the store finds that there is no such grant. -/
theorem ne_noSuchGrant_of_clear {S : Type} (engine : Engine D C E S) {w : World D C E S}
    {μ : Mutation} {p : Proposal} {e : RequestError}
    (h : ((engine.clear μ p).run w).1 = .error e) (g : Grant) : e ≠ .noSuchGrant g := by
  have hrefused : RefusedOnly (fun e => ∀ g, e ≠ .noSuchGrant g) (engine.clear μ p) := by
    refine engine.refusedOnly_clear (fun cause g he => ?_) (fun reason g he => ?_)
      (fun reason g he => ?_) μ p
    · cases cause <;> cases he
    · cases he
    · cases he
  exact hrefused w e h g

/-- A change of grants comes to one of these things over a recorded ledger. -/
theorem recording_mutate (engine : Engine D C E (Recorded Ledger))
    (hstore : engine.store = Recorded.service Ledger.service) (w : World D C E (Recorded Ledger))
    (μ : Mutation) (p : Proposal) :
    Recording engine w p μ ((engine.mutate μ p).run w).1 ((engine.mutate μ p).run w).2.store := by
  rcases engine.mutate_cases μ p w with ⟨e, v, hc, hv, hm⟩ | ⟨t, g, v, hc, hv, hm⟩
  · rw [hm, hv]
    exact .refused (congrArg Prod.fst hc)
  · rw [hm]
    have hcleared : ((engine.clear μ p).run w).1 = .ok (t, g) := congrArg Prod.fst hc
    cases μ with
    | grant =>
      have hadd : (engine.store.addGrants t [g]).run v.store =
          (.ok (), ⟨w.store.store.add t.key [g], w.store.calls ++ [.add t.type t.name [g]]⟩) := by
        rw [hstore, hv]
        rfl
      rw [engine.run_carryOut_grant hadd]
      exact .added hcleared
    | revoke =>
      have hremove : (engine.store.removeGrants t [g]).run v.store =
          (.ok (w.store.store.remove t.key [g]).1, ⟨(w.store.store.remove t.key [g]).2,
            w.store.calls ++ [.remove t.type t.name [g]]⟩) := by
        rw [hstore, hv]
        rfl
      rw [engine.run_carryOut_revoke hremove]
      by_cases hl : g ∈ w.store.store.on t.key
      · rw [Ledger.remove_of_mem hl]
        exact .removed hcleared
      · rw [Ledger.remove_of_notMem hl]
        exact .absent hcleared

end Engine

/-- The call of the store that carries a change of one grant out. -/
def Mutation.call (t : TargetEntry) (g : Grant) : Mutation → StoreCall
  | .grant => .add t.type t.name [g]
  | .revoke => .remove t.type t.name [g]

namespace Recording

variable {engine : Engine D C E (Recorded Ledger)} {w : World D C E (Recorded Ledger)}
  {p : Proposal} {μ : Mutation} {e : RequestError} {after : Recorded Ledger}

/-- A refused change leaves all listings as they are. -/
theorem listings (h : Recording engine w p μ (.error e) after) : after.store = w.store.store := by
  cases h <;> rfl

/-- The store does not hear of a refused change, unless it found that there is no such grant. -/
theorem unheard (h : Recording engine w p μ (.error e) after) (he : ∀ g, e ≠ .noSuchGrant g) :
    after.calls = w.store.calls := by
  cases h with
  | refused refusal => rfl
  | absent cleared => exact absurd rfl (he _)

/-- That there is no such grant is found by one call to remove it. -/
theorem absent_of_noSuchGrant {g : Grant}
    (h : Recording engine w p μ (.error (.noSuchGrant g)) after) :
    μ = .revoke ∧ ∃ t, ((engine.clear μ p).run w).1 = .ok (t, g) ∧
      after.calls = w.store.calls ++ [.remove t.type t.name [g]] := by
  cases h with
  | refused refusal => exact absurd rfl (engine.ne_noSuchGrant_of_clear refusal g)
  | absent cleared => exact ⟨rfl, _, cleared, rfl⟩

/-- A change that is carried out is one call, about one grant. -/
theorem carried {gs : List Grant} (h : Recording engine w p μ (.ok gs) after) :
    ∃ t g, ((engine.clear μ p).run w).1 = .ok (t, g) ∧
      after.calls = w.store.calls ++ [μ.call t g] := by
  cases h with
  | added cleared => exact ⟨_, _, cleared, rfl⟩
  | removed cleared => exact ⟨_, _, cleared, rfl⟩

end Recording

end Recording

/-! ## What a change leaves behind -/

/-- The request was refused because something that it names was not found, or because it makes no
sense for what it names. -/
def RequestError.isPreliminary : RequestError → Bool
  | .notFound _ _ | .invalid _ => true
  | _ => false

/-- What a change of grants with a certain result leaves of the world `w`. -/
structure Footprint {α : Type} (w : World Directory Catalog Script (Recorded Ledger))
    (μ : Mutation) (p : Proposal) (result : Except RequestError α)
    (after : World Directory Catalog Script (Recorded Ledger)) : Prop where
  /-- A refused change leaves all listings as they are. -/
  listings : ∀ e, result = .error e → after.store.store = w.store.store
  /-- The store does not hear of a refused change, unless it found that there is no such grant. -/
  unheard : ∀ e, result = .error e → (∀ g, e ≠ .noSuchGrant g) → after.store.calls = w.store.calls
  /-- That there is no such grant is found by one call to remove it. -/
  absent : ∀ g, result = .error (.noSuchGrant g) → μ = .revoke ∧
    ∃ t, w.directory.lookupTarget p.target.type p.target.locator = .ok t ∧
      after.store.calls = w.store.calls ++ [.remove t.type t.name [g]]
  /-- A change that is carried out is one call, about one grant. -/
  carried : ∀ a, result = .ok a →
    ∃ t g, w.directory.lookupTarget p.target.type p.target.locator = .ok t ∧
      after.store.calls = w.store.calls ++ [μ.call t g]
  /-- The evaluator is asked once if there is an actor and all else is settled. -/
  questioned : Questioned w μ p →
    after.evaluator.decisionCount = w.evaluator.decisionCount + 1
  /-- Otherwise, and so without an actor or for a grantee that is gone, the evaluator is not
  asked. -/
  unquestioned : ¬ Questioned w μ p → after.evaluator.decisionCount = w.evaluator.decisionCount
  /-- The evaluator is not asked about what cannot be found or makes no sense. -/
  preliminary : ∀ e, result = .error e → e.isPreliminary →
    after.evaluator.decisionCount = w.evaluator.decisionCount

namespace Footprint

variable {α β : Type} {w after : World Directory Catalog Script (Recorded Ledger)} {μ : Mutation}
  {p : Proposal}

/-- What is answered does not matter for what is left behind. -/
theorem of_map {f : α → β} {result : Except RequestError α}
    (h : Footprint w μ p (result.map f) after) : Footprint w μ p result after where
  listings e he := h.listings e (by rw [he]; rfl)
  unheard e he := h.unheard e (by rw [he]; rfl)
  absent g hg := h.absent g (by rw [hg]; rfl)
  carried a ha := h.carried (f a) (by rw [ha]; rfl)
  questioned := h.questioned
  unquestioned := h.unquestioned
  preliminary e he := h.preliminary e (by rw [he]; rfl)

end Footprint

namespace Engine

variable (supports : Bool) (config : Config)
  (w : World Directory Catalog Script (Recorded Ledger)) (μ : Mutation) (p : Proposal)

theorem footprint_mutate :
    Footprint w μ p
      (((scripted supports (Recorded.service Ledger.service) config).mutate μ p).run w).1
      (((scripted supports (Recorded.service Ledger.service) config).mutate μ p).run w).2 := by
  let engine := scripted supports (Recorded.service Ledger.service) config
  have hrecording := engine.recording_mutate rfl w μ p
  have hcount := decisionCount_mutate supports (Recorded.service Ledger.service) config w μ p
  have hfound {t : TargetEntry} {g : Grant} (h : ((engine.clear μ p).run w).1 = .ok (t, g)) :
      w.directory.lookupTarget p.target.type p.target.locator = .ok t := by
    obtain ⟨entry, right, cleared⟩ := engine.clear_eq_ok_iff.mp h
    exact cleared.target_found
  show Footprint w μ p ((engine.mutate μ p).run w).1 ((engine.mutate μ p).run w).2
  refine ⟨fun e he => ?_, fun e he => ?_, fun g hg => ?_, fun gs hgs => ?_, hcount.1, hcount.2,
    fun e he hpre => ?_⟩
  · rw [he] at hrecording
    exact hrecording.listings
  · rw [he] at hrecording
    exact hrecording.unheard
  · rw [hg] at hrecording
    obtain ⟨hμ, t, hc, hcalls⟩ := hrecording.absent_of_noSuchGrant
    exact ⟨hμ, t, hfound hc, hcalls⟩
  · rw [hgs] at hrecording
    obtain ⟨t, g, hc, hcalls⟩ := hrecording.carried
    exact ⟨t, g, hfound hc, hcalls⟩
  · -- A change that comes to the question is refused by a denial or by the store.
    refine hcount.2 fun hq => ?_
    rw [he] at hrecording
    generalize ((engine.mutate μ p).run w).2.store = store at hrecording
    cases hrecording with
    | refused refusal =>
      obtain ⟨reason, rfl⟩ := (decisionCount_clear_of_questioned supports _ config hq).2 e refusal
      cases hpre
    | absent cleared => cases hpre

end Engine

/-- **Refused changes leave no trace.**  Over a recorded ledger, granting and revoking leave the
footprint of a change behind: if they are refused, all listings stay as they are and the store is
not called, except for the one call which finds that there is no such grant; if they are carried
out, then by one call about one grant.  The evaluator is asked for one decision at most by any
request, and for none by a change without an actor, of a grantee that is gone, or that is refused
because of what it names. -/
theorem refused_changes_leave_no_trace (supports : Bool) (config : Config)
    (w : World Directory Catalog Script (Recorded Ledger)) :
    let engine := Engine.scripted supports (Recorded.service Ledger.service) config
    (∀ p : Proposal,
      let granted := (engine.grant p.actor p.target p.grantee p.right p.modifier).run w
      let revoked := (engine.revoke p.actor p.target p.grantee p.right p.modifier).run w
      Footprint w .grant p granted.1 granted.2 ∧ Footprint w .revoke p revoked.1 revoked.2) ∧
    ∀ q, let after := ((engine.answer q).run w).2
      after.evaluator.decisionCount = w.evaluator.decisionCount ∨
        after.evaluator.decisionCount = w.evaluator.decisionCount + 1 := by
  intro engine
  refine ⟨fun p => ⟨?_, ?_⟩, fun q => ?_⟩
  · have hgrant := Engine.footprint_mutate supports config w .grant p
    rw [Engine.run_mutate_grant] at hgrant
    exact hgrant.of_map
  · exact Engine.footprint_mutate supports config w .revoke p
  · exact Engine.asksOnce_answer supports _ config q w

/-- An admin that may pass a right on asks to revoke a grant of it that nobody has made. -/
theorem absent_grant_is_one_call :
    let g : Grant := ⟨.group, "g-admins", "createAccount", none⟩
    let w : World Directory Catalog Script (Recorded Ledger) := ⟨Sample.directory, Sample.catalog,
      Script.empty.allowDelegation ⟨"u-da", "createAccount"⟩, ⟨.empty, []⟩, []⟩
    let p : Proposal := ⟨some Sample.delegatedAdmin, ⟨.domain, .byId, "d-example"⟩,
      ⟨.group, .byName, "admins@example.com"⟩, "createAccount", none⟩
    let engine := Engine.scripted true (Recorded.service Ledger.service) ⟨true, true⟩
    let revoked := (engine.revoke p.actor p.target p.grantee p.right p.modifier).run w
    revoked.1 = .error (.noSuchGrant g) ∧ revoked.2.store.store = w.store.store ∧
      revoked.2.store.calls = [.remove .domain "example.com" [g]] ∧
      revoked.2.evaluator.decisionCount = 1 := by
  intro g w p engine revoked
  have hfootprint := ((refused_changes_leave_no_trace true ⟨true, true⟩ w).1 p).2
  have hrefused : revoked.1 = .error (.noSuchGrant g) := by rfl
  have hquestioned : Questioned w .revoke p :=
    ⟨_, _, _, _, rfl, by rfl, by rfl, by rfl, by rfl⟩
  obtain ⟨-, t, ht, hcalls⟩ := hfootprint.absent g hrefused
  refine ⟨hrefused, hfootprint.listings _ hrefused, ?_, hfootprint.questioned hquestioned⟩
  cases ht
  exact hcalls

end Delegation
