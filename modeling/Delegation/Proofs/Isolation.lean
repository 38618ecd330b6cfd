/-
# Targets do not share grants

Within a type, identifiers and names share one space of keys, and an address finds its target by
either of them.  Still, two different targets never store their grants under one key: each is filed
under the key of its grants.  So what is granted or revoked on one target is not seen on another.

## Key results

* `Engine.directory_mutate` — a change of grants leaves the entries alone.
* `Outcome.mem_on_iff_of_ne` — a change of grants leaves alone what is listed under other keys.
* `Engine.grants_congr` — a query for grants depends on the entries and on the grants on its target.
* `targets_do_not_share_grants` — a change on one target is not seen on another.
-/
import Delegation.Proofs.Filing
import Delegation.Proofs.Listing
import Delegation.Rehearsal.Sample
import Delegation.Script

namespace Delegation

variable {C E : Type} {catalog : CatalogService C} {evaluator : EvaluatorService E}
  {config : Config} {w v : World Directory C E Ledger}

/-! ## What a change leaves alone -/

/-- A change of grants leaves the entries alone. -/
theorem Engine.directory_mutate (catalog : CatalogService C) (evaluator : EvaluatorService E)
    (config : Config) (w : World Directory C E Ledger) (μ : Mutation) (p : Proposal) :
    (((inMemory catalog evaluator config).mutate μ p).run w).2.directory = w.directory := by
  let engine := inMemory catalog evaluator config
  -- The directory is only asked, so each call of it keeps the whole world.
  have hclear : Request.Keeps World.directory (engine.clear μ p) := by
    refine .bind (fun _ => rfl) fun target => ?_
    refine .bind (engine.keeps_findGrantee_of_lookup (fun _ _ _ => rfl) (fun _ _ => rfl) _ _)
      fun found => ?_
    refine .bind (.catalog (fun _ _ => rfl) _) fun right => ?_
    exact .bind (engine.keeps_verify (fun _ _ => rfl) (fun _ _ => rfl) _ _ _ _ _) fun _ => .pure _
  have hmutate : Request.Keeps World.directory (engine.mutate μ p) := by
    rw [mutate_eq]
    exact .bind hclear fun _ => engine.keeps_carryOut (fun _ _ => rfl) (fun _ _ => rfl) _ _ _
  exact hmutate w

/-- What is listed under another key than that of the addressed target is left alone. -/
theorem Outcome.mem_on_iff_of_ne {μ : Mutation} {p : Proposal}
    {result : Except RequestError (List Grant)} {l : Ledger} {s : TargetEntry} {k : TargetKey}
    {g : Grant} (h : Outcome (.inMemory catalog evaluator config) w p μ result l)
    (hs : w.directory.lookupTarget p.target.type p.target.locator = .ok s) (hk : k ≠ s.key) :
    g ∈ l.on k ↔ g ∈ w.store.on k := by
  -- The target that was cleared is the one that is found under the address.
  have other {target : TargetEntry} {entry : Option GranteeEntry} {right : Right} {grant : Grant}
      (cleared : Cleared (.inMemory catalog evaluator config) w μ p target entry right grant) :
      ¬ (k = target.key ∧ g = grant) := by
    have hfound := cleared.lookupTarget_eq_ok
    rw [hs] at hfound
    cases hfound
    exact fun hsame => hk hsame.1
  cases h with
  | refused refusal => rfl
  | absent cleared unlisted => rfl
  | added cleared => rw [Ledger.mem_on_add, or_iff_left (other cleared)]
  | removed cleared listed => rw [Ledger.mem_on_erase, and_iff_left (other cleared)]

/-- The answer to a query for the grants on a target depends on the entries and on what is listed on
this target. -/
theorem Engine.grants_congr {a : TargetAddress} {t : TargetEntry}
    (ht : w.directory.lookupTarget a.type a.locator = .ok t)
    (hdirectory : v.directory = w.directory)
    (hlisted : ∀ g, g ∈ v.store.on t.key ↔ g ∈ w.store.on t.key) :
    let engine := inMemory catalog evaluator config
    ((engine.grants a).run v).1 = ((engine.grants a).run w).1 := by
  intro engine
  have hw : (engine.grants a).run w =
      (.ok (.ofGrants (w.directory.shownName config) (w.store.on t.key)), w) :=
    run_grants rfl ht rfl
  have hv : (engine.grants a).run v =
      (.ok (.ofGrants (v.directory.shownName config) (v.store.on t.key)), v) :=
    run_grants rfl (hdirectory ▸ ht) rfl
  rw [hw, hv, hdirectory]
  exact congrArg Except.ok (Acl.ofGrants_congr hlisted fun _ _ => rfl)

/-- A change on a target is not seen on a target with another key. -/
theorem Engine.grants_mutate (catalog : CatalogService C) (evaluator : EvaluatorService E)
    (config : Config) {p : Proposal} {b : TargetAddress} {s t : TargetEntry}
    (hs : w.directory.lookupTarget p.target.type p.target.locator = .ok s)
    (ht : w.directory.lookupTarget b.type b.locator = .ok t) (hkey : s.key ≠ t.key)
    (μ : Mutation) :
    (((inMemory catalog evaluator config).grants b).run
      (((inMemory catalog evaluator config).mutate μ p).run w).2).1 =
        (((inMemory catalog evaluator config).grants b).run w).1 :=
  grants_congr ht (directory_mutate catalog evaluator config w μ p) fun _ =>
    (outcome_mutate catalog evaluator config w μ p).mem_on_iff_of_ne hs hkey.symm

/-- **Targets do not share grants.**  After any changes of the entries of a directory, a target that
is found is the one that was added last under its type and its key.  So two addresses, by identifier
or by name, that find different targets find targets with different keys, and whatever a grant or a
revocation under one of these addresses comes to, the grants that are shown under the other one stay
as they were. -/
theorem targets_do_not_share_grants (catalog : CatalogService C) (evaluator : EvaluatorService E)
    (config : Config) (start : Directory) (es : List Directory.Edit)
    (w : World Directory C E Ledger) (a b : TargetAddress) (s t : TargetEntry)
    (hs : (start.edits es).lookupTarget a.type a.locator = .ok s)
    (ht : (start.edits es).lookupTarget b.type b.locator = .ok t) (hne : s ≠ t) :
    let engine := Engine.inMemory catalog evaluator config
    let now : World Directory C E Ledger := { w with directory := start.edits es }
    (Directory.lastTarget? es s.key).or (start.targets.get? s.key) = some s ∧
    (Directory.lastTarget? es t.key).or (start.targets.get? t.key) = some t ∧
    (s.type, s.aclKey) ≠ (t.type, t.aclKey) ∧
    ∀ (actor : Option GranteeEntry) (grantee : GranteeAddress) (right : String)
      (modifier : Option Modifier),
      let granted := (engine.grant actor a grantee right modifier).run now
      let revoked := (engine.revoke actor a grantee right modifier).run now
      ∃ acl, ((engine.grants b).run now).1 = .ok acl ∧
        ((engine.grants b).run granted.2).1 = .ok acl ∧
        ((engine.grants b).run revoked.2).1 = .ok acl := by
  intro engine now
  have hkey : s.key ≠ t.key := fun hkey => hne (Directory.eq_of_key_eq hs ht hkey)
  refine ⟨?_, ?_, fun hpair => ?_, fun actor grantee right modifier => ?_⟩
  · rw [← Directory.get?_targets_edits]
    exact Directory.get?_of_lookupTarget hs
  · rw [← Directory.get?_targets_edits]
    exact Directory.get?_of_lookupTarget ht
  · obtain ⟨htype, haclKey⟩ := Prod.mk.inj hpair
    exact hkey (TargetKey.mk.injEq .. ▸ ⟨htype, haclKey⟩)
  · intro granted revoked
    let p : Proposal := ⟨actor, a, grantee, right, modifier⟩
    have hsame := Engine.grants_mutate catalog evaluator config (w := now) (p := p) hs ht hkey
    have hgrant : granted.2 = ((engine.mutate .grant p).run now).2 := by
      rw [Engine.run_mutate_grant]
    obtain ⟨acl, hacl, -⟩ := Engine.grants_inMemory catalog evaluator config now ht
    refine ⟨acl, hacl, ?_, (hsame .revoke).trans hacl⟩
    rw [hgrant]
    exact (hsame .grant).trans hacl

/-- Two domains, each of which bears the identifier of the other one as its name: a grant on one of
them is not seen on the other.  The first domain that was filed under its name is replaced. -/
theorem crossed_names_do_not_share_grants :
    let es : List Directory.Edit := [.addTarget (.plain .domain (some "x") "y"),
      .addTarget (.plain .domain none "y"), .addTarget (.plain .domain (some "y") "x")]
    let a : TargetAddress := ⟨.domain, .byId, "x"⟩
    let b : TargetAddress := ⟨.domain, .byName, "x"⟩
    let engine := Engine.inMemory Catalog.service (Script.service true) ⟨true, true⟩
    let now : World Directory Catalog Script Ledger :=
      ⟨Sample.directory.edits es, Sample.catalog, .empty, .empty, []⟩
    let granted := (engine.grant none a ⟨.user, .byId, "u-da"⟩ "createAccount" none).run now
    (granted.2.store.on ⟨.domain, "x"⟩).length = 1 ∧
      ((engine.grants b).run granted.2).1 = ((engine.grants b).run now).1 ∧
      now.directory.targets.get? ⟨.domain, "y"⟩ = some (.plain .domain (some "y") "x") := by
  intro es a b engine now granted
  obtain ⟨-, hfiled, -, hsame⟩ := targets_do_not_share_grants Catalog.service (Script.service true)
    ⟨true, true⟩ Sample.directory es now a b (.plain .domain (some "x") "y")
    (.plain .domain (some "y") "x") (by rfl) (by rfl) (by decide)
  obtain ⟨acl, hacl, hgranted, -⟩ := hsame none ⟨.user, .byId, "u-da"⟩ "createAccount" none
  refine ⟨by decide, hgranted.trans hacl.symm, ?_⟩
  rw [← hfiled]
  exact Directory.get?_targets_edits _ _ _

end Delegation
