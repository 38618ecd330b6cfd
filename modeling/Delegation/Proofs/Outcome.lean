/-
# What a change of grants comes to

An engine whose entries and grants are kept in memory, over any catalog and any evaluator.  A
change of grants that it is asked for comes to one of four things, and everything that is proved
about such engines rests on this list.

## Key constructions

* `Engine.inMemory` — an engine over a directory and a ledger.
* `Outcome` — the four things that a change can come to, with the ledger that is left behind.

## Key results

* `Engine.outcome_mutate` — each change comes to one of them.
* `Outcome.mem_cases` — what is listed after a change was listed before, or was cleared.
* `Cleared.granteeLookup_cases` — the grantee of a change is an entry, or gone and addressed by
  its identifier.
-/
import Delegation.Proofs.Clearance
import Delegation.Proofs.Ledger
import Delegation.Proofs.Lookup

namespace Delegation

variable {C E : Type} {catalog : CatalogService C} {evaluator : EvaluatorService E}
  {config : Config}

/-- An engine over entries and grants in memory. -/
def Engine.inMemory (catalog : CatalogService C) (evaluator : EvaluatorService E)
    (config : Config) : Engine Directory C E Ledger where
  directory := Directory.service
  catalog := catalog
  evaluator := evaluator
  store := Ledger.service
  config := config

/-! ## Clearances in memory -/

namespace Cleared

variable {w : World Directory C E Ledger} {μ : Mutation} {p : Proposal} {target : TargetEntry}
  {entry : Option GranteeEntry} {right : Right} {grant : Grant}

theorem lookupTarget_eq_ok
    (h : Cleared (.inMemory catalog evaluator config) w μ p target entry right grant) :
    w.directory.lookupTarget p.target.type p.target.locator = .ok target :=
  h.target_found

/-- The grantee of a change is an entry of the directory, or it is gone and a revocation has
addressed it by its identifier. -/
theorem granteeLookup_cases
    (h : Cleared (.inMemory catalog evaluator config) w μ p target entry right grant) :
    (∃ g, entry = some g ∧ grant.granteeId = g.id ∧
      w.directory.lookupGrantee p.grantee.type p.grantee.locator = .ok g) ∨
    (entry = none ∧ μ = .revoke ∧ p.grantee.locator = ⟨.byId, grant.granteeId⟩ ∧
      w.directory.lookupGrantee p.grantee.type p.grantee.locator =
        .error (.notFound (Directory.missingGrantee p.grantee.type) grant.granteeId)) := by
  have hg := h.grantee_found
  -- The identifier is a variable from here on, so that the two ways to find a grantee can be told
  -- apart.
  generalize grant.granteeId = granteeId at hg ⊢
  cases hg with
  | present found => exact .inl ⟨_, rfl, rfl, found⟩
  | gone missing _ _ literal =>
    have hlookup : w.directory.lookupGrantee p.grantee.type p.grantee.locator = .error _ := missing
    refine .inr ⟨rfl, rfl, literal, ?_⟩
    rw [hlookup, Directory.eq_of_lookupGrantee_error hlookup, literal]

/-- The grantee of a grant is an entry of the directory. -/
theorem granteeLookup_of_grant
    (h : Cleared (.inMemory catalog evaluator config) w .grant p target entry right grant) :
    ∃ g, entry = some g ∧ grant.granteeId = g.id ∧
      w.directory.lookupGrantee p.grantee.type p.grantee.locator = .ok g :=
  h.grantee_found.exists_of_grant

theorem granteeType_eq
    (h : Cleared (.inMemory catalog evaluator config) w μ p target entry right grant) :
    grant.granteeType = p.grantee.type := congrArg Grant.granteeType h.grant_eq

theorem grant_right
    (h : Cleared (.inMemory catalog evaluator config) w μ p target entry right grant) :
    grant.right = right.name := congrArg Grant.right h.grant_eq

end Cleared

/-! ## Outcomes -/

/-- What a change of grants comes to, and the ledger that it leaves behind. -/
inductive Outcome (engine : Engine Directory C E Ledger) (w : World Directory C E Ledger)
    (p : Proposal) : Mutation → Except RequestError (List Grant) → Ledger → Prop
  /-- The clearance is refused. -/
  | refused {μ : Mutation} {e : RequestError} (refusal : ((engine.clear μ p).run w).1 = .error e) :
      Outcome engine w p μ (.error e) w.store
  /-- The grant is added, if it is not there already. -/
  | added {target : TargetEntry} {entry : Option GranteeEntry} {right : Right} {grant : Grant}
      (cleared : Cleared engine w .grant p target entry right grant) :
      Outcome engine w p .grant (.ok []) (w.store.add target.key [grant])
  /-- The grant is removed. -/
  | removed {target : TargetEntry} {entry : Option GranteeEntry} {right : Right} {grant : Grant}
      (cleared : Cleared engine w .revoke p target entry right grant)
      (listed : grant ∈ w.store.on target.key) :
      Outcome engine w p .revoke (.ok [grant]) (w.store.erase ⟨target.key, grant⟩)
  /-- There is no such grant to remove. -/
  | absent {target : TargetEntry} {entry : Option GranteeEntry} {right : Right} {grant : Grant}
      (cleared : Cleared engine w .revoke p target entry right grant)
      (unlisted : grant ∉ w.store.on target.key) :
      Outcome engine w p .revoke (.error (.noSuchGrant grant)) w.store

/-- What is listed after a change was listed before, or it is the grant that has been cleared. -/
theorem Outcome.mem_cases {engine : Engine Directory C E Ledger} {w : World Directory C E Ledger}
    {p : Proposal} {μ : Mutation} {result : Except RequestError (List Grant)} {l : Ledger}
    (h : Outcome engine w p μ result l) {k : TargetKey} {g : Grant} (hg : g ∈ l.on k) :
    g ∈ w.store.on k ∨ μ = .grant ∧
      ∃ target entry right, Cleared engine w .grant p target entry right g ∧ target.key = k := by
  cases h with
  | refused refusal => exact .inl hg
  | absent cleared unlisted => exact .inl hg
  | removed cleared listed => exact .inl (Ledger.mem_on_erase.mp hg).1
  | added cleared =>
    rcases Ledger.mem_on_add.mp hg with hg | ⟨rfl, rfl⟩
    · exact .inl hg
    · exact .inr ⟨rfl, _, _, _, cleared, rfl⟩

namespace Engine

open Request

variable {w : World Directory C E Ledger}

/-- A change of grants comes to one of the four outcomes. -/
theorem outcome_mutate (catalog : CatalogService C) (evaluator : EvaluatorService E)
    (config : Config) (w : World Directory C E Ledger) (μ : Mutation) (p : Proposal) :
    Outcome (inMemory catalog evaluator config) w p μ
      (((inMemory catalog evaluator config).mutate μ p).run w).1
      (((inMemory catalog evaluator config).mutate μ p).run w).2.store := by
  generalize hengine : inMemory catalog evaluator config = engine
  have hstore : engine.store = Ledger.service := hengine ▸ rfl
  rcases engine.mutate_cases μ p w with ⟨e, v, hc, hv, hm⟩ | ⟨target, grant, v, hc, hv, hm⟩
  · rw [hm, hv]
    exact .refused (congrArg Prod.fst hc)
  · rw [hm]
    -- The store is as it was in `w` when it is called.
    obtain ⟨entry, right, cleared⟩ := engine.clear_eq_ok_iff.mp (congrArg Prod.fst hc)
    cases μ with
    | grant =>
      have hadd : (engine.store.addGrants target [grant]).run v.store =
          (.ok (), w.store.add target.key [grant]) := by
        rw [hstore, hv]
        rfl
      rw [engine.run_carryOut_grant hadd]
      exact .added cleared
    | revoke =>
      have hremove : (engine.store.removeGrants target [grant]).run v.store =
          (.ok (w.store.remove target.key [grant]).1, (w.store.remove target.key [grant]).2) := by
        rw [hstore, hv]
        rfl
      rw [engine.run_carryOut_revoke hremove]
      by_cases hl : grant ∈ w.store.on target.key
      · rw [Ledger.remove_of_mem hl]
        exact .removed cleared hl
      · rw [Ledger.remove_of_notMem hl]
        exact .absent cleared hl

end Engine

end Delegation
