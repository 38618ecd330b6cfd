/-
# Sessions as runs of changes

The engine in memory does to its ledger what its answered requests do to a plain map from targets
to sets of grants: each of them makes the one change that it names, and nothing else changes the
map.

## Key constructions

* `Proposal.change?` — the change that a proposal names in a world.
* `Session.change?`, `Session.changes` — the changes that a step, and a run of steps, make.

## Key results

* `Outcome.store_of_granted`, `Outcome.store_of_revoked` — what an answered request does to the
  ledger.
* `Outcome.store_congr` — what determines the ledger that a change leaves behind.
* `Session.toMap_run` — a session applies its changes to the map of its ledger.
* `engine_refines_grantMap` — the engine in memory refines a map from targets to sets of grants.
-/
import Delegation.Proofs.GrantMap
import Delegation.Proofs.Listing
import Delegation.Proofs.Session
import Delegation.Rehearsal.Sample
import Delegation.Script

namespace Delegation

variable {C E : Type}

/-! ## The change that a proposal names -/

/-- The identifier under which the grants of a grantee are stored: that of the entry which is
found, or else the one in the address. -/
def Directory.granteeId? (d : Directory) (a : GranteeAddress) : Option String :=
  match d.lookupGrantee a.type a.locator with
  | .ok entry => some entry.id
  | .error _ =>
    match a.locator.mode with
    | .byId => some a.locator.key
    | .byName => none

/-- The change that a proposal names, if its target, its grantee and its right are found. -/
def Proposal.change? (catalog : CatalogService C) (w : World Directory C E Ledger) (μ : Mutation)
    (p : Proposal) : Option Change :=
  match w.directory.lookupTarget p.target.type p.target.locator, w.directory.granteeId? p.grantee,
      ((catalog.right p.right).run w.catalog).1 with
  | .ok t, some granteeId, .ok r =>
    some ⟨μ, t.key, ⟨p.grantee.type, granteeId, r.name, p.modifier⟩⟩
  | _, _, _ => none

section Clearance

variable {catalog : CatalogService C} {evaluator : EvaluatorService E} {config : Config}
  {w : World Directory C E Ledger} {μ : Mutation} {p : Proposal} {target : TargetEntry}
  {entry : Option GranteeEntry} {right : Right} {grant : Grant}

theorem Cleared.granteeId?_eq
    (h : Cleared (.inMemory catalog evaluator config) w μ p target entry right grant) :
    w.directory.granteeId? p.grantee = some grant.granteeId := by
  unfold Directory.granteeId?
  rcases h.granteeLookup_cases with ⟨g, -, hid, hlookup⟩ | ⟨-, -, hloc, hmissing⟩
  · rw [hlookup, hid]
  · rw [hmissing, hloc]

/-- What is cleared is the change that the proposal names. -/
theorem Cleared.change?_eq
    (h : Cleared (.inMemory catalog evaluator config) w μ p target entry right grant) :
    p.change? catalog w μ = some ⟨μ, target.key, grant⟩ := by
  have hright : ((catalog.right p.right).run w.catalog).1 = .ok right := h.right_found
  unfold Proposal.change?
  rw [h.lookupTarget_eq_ok, h.granteeId?_eq, hright]
  show some (Change.mk μ target.key ⟨p.grantee.type, grant.granteeId, right.name, p.modifier⟩) = _
  rw [← h.grant_eq]

/-- Granting adds exactly the grant of the resolved names to the resolved target. -/
theorem Outcome.store_of_granted {gs : List Grant} {l : Ledger}
    (h : Outcome (.inMemory catalog evaluator config) w p .grant (.ok gs) l) :
    ∃ t g r, w.directory.lookupTarget p.target.type p.target.locator = .ok t ∧
      w.directory.lookupGrantee p.grantee.type p.grantee.locator = .ok g ∧
      ((catalog.right p.right).run w.catalog).1 = .ok r ∧
      l = w.store.add t.key [⟨p.grantee.type, g.id, r.name, p.modifier⟩] := by
  cases h with
  | @added t _ r grant cleared =>
    obtain ⟨g, -, hid, hlookup⟩ := cleared.granteeLookup_of_grant
    refine ⟨t, g, r, cleared.lookupTarget_eq_ok, hlookup, cleared.right_found, ?_⟩
    rw [cleared.grant_eq, hid]

/-- Revoking removes exactly the grant of the resolved names from the resolved target, where it was
listed, and returns it. -/
theorem Outcome.store_of_revoked {gs : List Grant} {l : Ledger}
    (h : Outcome (.inMemory catalog evaluator config) w p .revoke (.ok gs) l) :
    ∃ t granteeId r, w.directory.lookupTarget p.target.type p.target.locator = .ok t ∧
      w.directory.granteeId? p.grantee = some granteeId ∧
      ((catalog.right p.right).run w.catalog).1 = .ok r ∧
      let grant : Grant := ⟨p.grantee.type, granteeId, r.name, p.modifier⟩
      gs = [grant] ∧ grant ∈ w.store.on t.key ∧ l = w.store.erase ⟨t.key, grant⟩ := by
  cases h with
  | @removed t _ r grant cleared listed =>
    refine ⟨t, grant.granteeId, r, cleared.lookupTarget_eq_ok, cleared.granteeId?_eq,
      cleared.right_found, ?_⟩
    rw [← cleared.grant_eq]
    exact ⟨rfl, listed, rfl⟩

/-- A refused change of grants leaves the ledger alone. -/
theorem Outcome.store_of_refused {engine : Engine Directory C E Ledger} {e : RequestError}
    {l : Ledger} (h : Outcome engine w p μ (.error e) l) : l = w.store := by
  cases h with
  | refused refusal => rfl
  | absent cleared unlisted => rfl

/-- An answered request makes the change that it names, and a refused one makes none. -/
theorem Outcome.toMap_eq {result : Except RequestError (List Grant)} {l : Ledger}
    (h : Outcome (.inMemory catalog evaluator config) w p μ result l) :
    l.toMap = (match result with
      | .ok _ => p.change? catalog w μ
      | .error _ => none).toList.foldl GrantMap.apply w.store.toMap := by
  cases h with
  | refused refusal => rfl
  | absent cleared unlisted => rfl
  | added cleared =>
    simp only [cleared.change?_eq]
    exact Ledger.toMap_add
  | removed cleared listed =>
    simp only [cleared.change?_eq]
    exact Ledger.toMap_erase

/-- What a change leaves behind is determined by its result, by the change that it names and by
what was stored before. -/
theorem Outcome.store_congr {v : World Directory C E Ledger}
    {result : Except RequestError (List Grant)} {l l' : Ledger}
    (h : Outcome (.inMemory catalog evaluator config) w p μ result l)
    (h' : Outcome (.inMemory catalog evaluator config) v p μ result l')
    (hstore : w.store = v.store) (hchange : p.change? catalog w μ = p.change? catalog v μ) :
    l = l' :=
  Ledger.toMap_injective (by rw [h.toMap_eq, h'.toMap_eq, hstore, hchange])

end Clearance

/-! ## The changes of a session -/

namespace Session

variable (catalog : CatalogService C) (evaluator : EvaluatorService E)

/-- The change that a step makes: an answered request makes the one that it names. -/
def change? (s : Session C E) : Step C E → Option Change
  | .mutate μ p =>
    match s.result catalog evaluator μ p with
    | .ok _ => p.change? catalog s.world μ
    | .error _ => none
  | _ => none

/-- The changes that some steps make, one after the other. -/
def changes (s : Session C E) : List (Step C E) → List Change
  | [] => []
  | st :: steps => (s.change? catalog evaluator st).toList ++
      (s.step catalog evaluator st).changes steps

/-- The map of what is listed in a session. -/
def toMap (s : Session C E) : GrantMap := s.world.store.toMap

/-- A step applies its change to the map. -/
theorem toMap_step (s : Session C E) (st : Step C E) :
    (s.step catalog evaluator st).toMap =
      (s.change? catalog evaluator st).toList.foldl GrantMap.apply s.toMap := by
  cases st with
  | mutate μ p => exact (s.outcome_step catalog evaluator μ p).toMap_eq
  | ask q =>
    unfold toMap
    rw [store_step_ask]
    rfl
  | _ => rfl

/-- A session applies its changes to the map. -/
theorem toMap_run (s : Session C E) (steps : List (Step C E)) :
    (s.run catalog evaluator steps).toMap =
      (s.changes catalog evaluator steps).foldl GrantMap.apply s.toMap := by
  -- From the front, because the later changes are those of the session after the first step.
  induction steps generalizing s with
  | nil => rfl
  | cons st steps ih =>
    unfold changes
    rw [List.foldl_append, ← toMap_step]
    exact ih (s.step catalog evaluator st)

end Session

/-- **The engine in memory refines a map from targets to sets of grants.**  Granting adds the one
grant of the resolved names to the resolved target, and nothing if it is there already; revoking
removes that one grant, which was there, and returns it; refused changes and queries do nothing.
Hence the map after a session is the map before it with the changes of the session applied one after
the other: a grant is listed iff it was there initially or was granted, and was not revoked since.
Listings show each grant once, and queries for grants show the listings. -/
theorem engine_refines_grantMap (catalog : CatalogService C) (evaluator : EvaluatorService E) :
    (∀ (config : Config) (w : World Directory C E Ledger) (actor : Option GranteeEntry)
        (target : TargetAddress) (grantee : GranteeAddress) (right : String)
        (modifier : Option Modifier),
      let engine := Engine.inMemory catalog evaluator config
      let granted := (engine.grant actor target grantee right modifier).run w
      let revoked := (engine.revoke actor target grantee right modifier).run w
      (granted.1 = .ok () → ∃ t entry r,
        w.directory.lookupTarget target.type target.locator = .ok t ∧
        w.directory.lookupGrantee grantee.type grantee.locator = .ok entry ∧
        ((catalog.right right).run w.catalog).1 = .ok r ∧
        let grant : Grant := ⟨grantee.type, entry.id, r.name, modifier⟩
        granted.2.store.toMap = w.store.toMap.apply ⟨.grant, t.key, grant⟩ ∧
          (grant ∈ w.store.on t.key → granted.2.store = w.store)) ∧
      (∀ removed, revoked.1 = .ok removed → ∃ t granteeId r,
        w.directory.lookupTarget target.type target.locator = .ok t ∧
        w.directory.granteeId? grantee = some granteeId ∧
        ((catalog.right right).run w.catalog).1 = .ok r ∧
        let grant : Grant := ⟨grantee.type, granteeId, r.name, modifier⟩
        removed = [grant] ∧ grant ∈ w.store.on t.key ∧
          revoked.2.store.toMap = w.store.toMap.apply ⟨.revoke, t.key, grant⟩) ∧
      (∀ e, granted.1 = .error e → granted.2.store = w.store) ∧
      (∀ e, revoked.1 = .error e → revoked.2.store = w.store) ∧
      ∀ q, ((engine.answer q).run w).2.store = w.store) ∧
    ∀ (s : Session C E) (steps : List (Session.Step C E)),
      let now := s.run catalog evaluator steps
      let changes := s.changes catalog evaluator steps
      now.toMap = changes.foldl GrantMap.apply s.toMap ∧
      (∀ k g, g ∈ now.grants k ↔
        g ∈ s.grants k ∧ ⟨.revoke, k, g⟩ ∉ changes ∨ GrantedSince changes k g) ∧
      (∀ k, (now.grants k).Nodup) ∧
      ∀ (a : TargetAddress) (t : TargetEntry),
        now.world.directory.lookupTarget a.type a.locator = .ok t →
        ∃ acl, (((now.engine catalog evaluator).grants a).run now.world).1 = .ok acl ∧
          acl.grants = now.grants t.key := by
  refine ⟨fun config w actor target grantee right modifier => ?_, fun s steps =>
    ⟨s.toMap_run catalog evaluator steps, fun k g => ?_, fun k => Ledger.nodup_on _ _, fun a t ht =>
      Engine.grants_inMemory catalog evaluator _ _ ht⟩⟩
  · intro engine granted revoked
    let p : Proposal := ⟨actor, target, grantee, right, modifier⟩
    have hgranted : Outcome engine w p .grant (granted.1.map fun _ => []) granted.2.store := by
      have ho := Engine.outcome_mutate catalog evaluator config w .grant p
      rw [Engine.run_mutate_grant] at ho
      exact ho
    have hrevoked : Outcome engine w p .revoke revoked.1 revoked.2.store :=
      Engine.outcome_mutate catalog evaluator config w .revoke p
    refine ⟨fun h => ?_, fun gs h => ?_, fun e h => ?_, fun e h => ?_, fun q => ?_⟩
    · rw [h] at hgranted
      obtain ⟨t, entry, r, ht, hentry, hr, hstore⟩ := hgranted.store_of_granted
      refine ⟨t, entry, r, ht, hentry, hr, ?_, fun hlisted => ?_⟩
      · rw [hstore, Ledger.toMap_add]
      · rw [hstore, Ledger.add_of_mem hlisted]
    · rw [h] at hrevoked
      obtain ⟨t, granteeId, r, ht, hid, hr, hgs, hlisted, hstore⟩ := hrevoked.store_of_revoked
      refine ⟨t, granteeId, r, ht, hid, hr, hgs, hlisted, ?_⟩
      rw [hstore, Ledger.toMap_erase]
    · rw [h] at hgranted
      exact hgranted.store_of_refused
    · rw [h] at hrevoked
      exact hrevoked.store_of_refused
    · exact Session.store_step_ask catalog evaluator ⟨config, w⟩ q
  · show g ∈ (s.run catalog evaluator steps).toMap k ↔ g ∈ s.toMap k ∧ _ ∨ _
    rw [Session.toMap_run]
    exact GrantMap.mem_foldl_apply

/-- Of two grants that differ in their modifier, one is revoked when its grantee is gone, and the
other one stays. -/
theorem one_modifier_is_revoked :
    let k : TargetKey := ⟨.domain, "d-example"⟩
    let grant (modifier : Option Modifier) : Grant := ⟨.user, "u-da", "createAccount", modifier⟩
    let propose (grantee : Locator) (modifier : Option Modifier) : Proposal :=
      ⟨none, ⟨.domain, .byName, "example.com"⟩, ⟨.user, grantee⟩, "createAccount", modifier⟩
    let s : Session Catalog Script :=
      ⟨⟨true, true⟩, Sample.directory, Sample.catalog, .empty, .empty, []⟩
    let steps := [.mutate .grant (propose ⟨.byName, "da@example.com"⟩ none),
      .mutate .grant (propose ⟨.byId, "u-da"⟩ (some .canDelegate)),
      .directory (Sample.directory.removeGrantee ⟨.user, "u-da"⟩),
      .mutate .revoke (propose ⟨.byId, "u-da"⟩ none)]
    let now := s.run Catalog.service (Script.service true) steps
    (s.step Catalog.service (Script.service true)
        (.mutate .grant (propose ⟨.byName, "da@example.com"⟩ none))).toMap =
          s.toMap.apply ⟨.grant, k, grant none⟩ ∧
      grant none ∉ now.grants k ∧ grant (some .canDelegate) ∈ now.grants k := by
  intro k grant propose s steps now
  have hrefines := engine_refines_grantMap Catalog.service (Script.service true)
  obtain ⟨hgranted, -⟩ := hrefines.1 ⟨true, true⟩ s.world none ⟨.domain, .byName, "example.com"⟩
    ⟨.user, .byName, "da@example.com"⟩ "createAccount" none
  obtain ⟨t, entry, r, ht, hentry, hr, hmap, -⟩ := hgranted (by rfl)
  obtain ⟨-, hlisted, -⟩ := hrefines.2 s steps
  have hchanges : s.changes Catalog.service (Script.service true) steps =
      [⟨.grant, k, grant none⟩, ⟨.grant, k, grant (some .canDelegate)⟩] ++
        [⟨.revoke, k, grant none⟩] := by
    decide
  rw [hchanges] at hlisted
  refine ⟨?_, fun h => ?_, ?_⟩
  · cases ht
    cases hentry
    cases hr
    exact hmap
  · rcases (hlisted k _).mp h with ⟨-, hkept⟩ | hsince
    · exact hkept (by decide)
    · rcases grantedSince_concat.mp hsince with hc | ⟨-, hc⟩
      · cases hc
      · exact hc rfl
  · exact (hlisted k _).mpr (.inr ⟨[_], [_], rfl, by decide⟩)
end Delegation
