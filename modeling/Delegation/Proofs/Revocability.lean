/-
# No grant gets stuck

Whatever happens to the grantees of stored grants, each grant can be revoked under its own type,
identifier, right and modifier.  Three facts carry this.  A grant to one of the grantees that stand
for everybody bears the identifier of that grantee, so that looking it up finds the grantee again.
Of all other grantees, either the lookup by the identifier finds the entry that bears it, or the
grantee is gone and its identifier is taken literally.  And the type of the target was checked when
the grant was made.

## Key constructions

* `Grant.Addressable` — a lookup can only find the grantee of the grant under its identifier.

## Key results

* `Session.forall_grants_run` — what holds of every cleared grant holds of every stored one.
* `Grant.Addressable.granteeFound` — the grantee of an addressable grant is found by its identifier,
  or gone.
* `Cleared.revoked` — a revocation that is cleared removes the grant that it names.
* `Engine.mutate_revoke_eq_ok_iff` — when revocations succeed.
* `no_grant_is_stuck` — along a session, every stored grant can be revoked.
-/
import Delegation.Proofs.Eligibility
import Delegation.Proofs.Refinement

namespace Delegation

/-! ## Finding the grantee of a stored grant -/

/-- A grant to a grantee that stands for everybody bears the identifier of that grantee. -/
def Grant.Addressable (g : Grant) : Prop :=
  ∀ entry, Directory.builtIn? g.granteeType = some entry → entry.id = g.granteeId

/-- The address of the grantee of a grant: its type, and its identifier. -/
def Grant.granteeAddress (g : Grant) : GranteeAddress := ⟨g.granteeType, .byId, g.granteeId⟩

/-- The entry that is found for a grantee that stands for everybody is the same in every
directory. -/
theorem Directory.lookupGrantee_of_builtIn? {d : Directory} {type : GranteeType} {loc : Locator}
    {entry : GranteeEntry} (h : builtIn? type = some entry) :
    d.lookupGrantee type loc = .ok entry := by
  unfold lookupGrantee
  rw [h]

/-- What a lookup of the grantee of an addressable grant finds bears the identifier in the grant. -/
theorem Grant.Addressable.id_eq {g : Grant} (h : g.Addressable) {d : Directory}
    {entry : GranteeEntry}
    (hlookup : d.lookupGrantee g.granteeType ⟨.byId, g.granteeId⟩ = .ok entry) :
    entry.id = g.granteeId := by
  have hfound := Directory.lookupGrantee_eq_ok_iff.mp hlookup
  unfold Directory.grantee? at hfound
  split at hfound
  next everybody hbuiltIn =>
    cases hfound
    exact h entry hbuiltIn
  next =>
    obtain ⟨-, hkey⟩ := Keyed.get?_eq_some_iff.mp hfound
    exact congrArg GranteeKey.id hkey

section Clearance

variable {C E : Type} {catalog : CatalogService C} {evaluator : EvaluatorService E}
  {config : Config} {w : World Directory C E Ledger} {p : Proposal} {target : TargetEntry}
  {entry : Option GranteeEntry} {right : Right} {grant g : Grant}

/-- A grant that has been cleared is addressable. -/
theorem Cleared.addressable
    (h : Cleared (.inMemory catalog evaluator config) w .grant p target entry right grant) :
    grant.Addressable := by
  intro everybody hbuiltIn
  obtain ⟨found, -, hid, hlookup⟩ := h.granteeLookup_of_grant
  rw [h.granteeType_eq] at hbuiltIn
  rw [Directory.lookupGrantee_of_builtIn? hbuiltIn] at hlookup
  cases hlookup
  exact hid.symm

/-- If grants of grantees that are gone may be revoked, a revocation finds the grantee of every
addressable grant under the identifier in the grant. -/
theorem Grant.Addressable.granteeFound (h : g.Addressable) (horphan : config.orphanRevoke = true)
    (d : Directory) :
    ∃ entry, GranteeFound (.inMemory catalog evaluator config) d g.granteeAddress .revoke entry
      g.granteeId := by
  cases hlookup : d.lookupGrantee g.granteeType ⟨.byId, g.granteeId⟩ with
  | ok entry =>
    rw [← h.id_eq hlookup]
    exact ⟨some entry, .present hlookup⟩
  | error e =>
    rw [Directory.eq_of_lookupGrantee_error hlookup] at hlookup
    exact ⟨none, .gone hlookup (Directory.isMissingGrantee_missingGrantee _) horphan rfl⟩

/-! ## Revoking it -/

/-- A revocation that is cleared removes the one grant that it names, where it is listed, and
returns it. -/
theorem Cleared.revoked
    (h : Cleared (.inMemory catalog evaluator config) w .revoke p target entry right grant)
    (hlisted : grant ∈ w.store.on target.key) :
    let revoked := ((Engine.inMemory catalog evaluator config).mutate .revoke p).run w
    revoked.1 = .ok [grant] ∧ revoked.2.store = w.store.erase ⟨target.key, grant⟩ := by
  intro revoked
  have ho : Outcome (.inMemory catalog evaluator config) w p .revoke revoked.1 revoked.2.store :=
    Engine.outcome_mutate catalog evaluator config w .revoke p
  have hclear := (Engine.clear_eq_ok_iff _).mpr ⟨entry, right, h⟩
  -- Of the outcomes only the removal is left, and it is that of the grant that the proposal names.
  have named {key : TargetKey} {other : Grant}
      (hother : p.change? catalog w .revoke = some ⟨.revoke, key, other⟩) :
      key = target.key ∧ other = grant := by
    rw [h.change?_eq] at hother
    cases hother
    exact ⟨rfl, rfl⟩
  generalize revoked.1 = result at ho
  generalize revoked.2.store = l at ho
  cases ho with
  | refused refusal =>
    rw [hclear] at refusal
    cases refusal
  | removed cleared listed =>
    obtain ⟨hkey, rfl⟩ := named cleared.change?_eq
    rw [hkey]
    exact ⟨rfl, rfl⟩
  | absent cleared unlisted =>
    obtain ⟨hkey, rfl⟩ := named cleared.change?_eq
    rw [hkey] at unlisted
    exact absurd hlisted unlisted

/-- Revoking succeeds iff it is cleared and the grant is stored, and returns this grant. -/
theorem Engine.mutate_revoke_eq_ok_iff {removed : List Grant} :
    (((inMemory catalog evaluator config).mutate .revoke p).run w).1 = .ok removed ↔
      ∃ t entry r grant, Cleared (inMemory catalog evaluator config) w .revoke p t entry r grant ∧
        grant ∈ w.store.on t.key ∧ removed = [grant] := by
  constructor
  · intro h
    have ho := outcome_mutate catalog evaluator config w .revoke p
    rw [h] at ho
    generalize (((inMemory catalog evaluator config).mutate .revoke p).run w).2.store = l at ho
    cases ho with
    | removed cleared listed => exact ⟨_, _, _, _, cleared, listed, rfl⟩
  · rintro ⟨t, entry, r, grant, cleared, listed, rfl⟩
    exact (cleared.revoked listed).1

/-- A grant that is stored on a target and eligible there is cleared to be revoked, if it is
addressable and grants of grantees that are gone may be revoked. -/
theorem Grant.Addressable.cleared {w : World Directory Catalog E Ledger} {a : TargetAddress}
    (h : g.Addressable) (evaluator : EvaluatorService E) (horphan : config.orphanRevoke = true)
    (htarget : w.directory.lookupTarget a.type a.locator = .ok target)
    (heligible : g.EligibleOn w.catalog target.type) :
    ∃ entry right, Cleared (.inMemory Catalog.service evaluator config) w .revoke
      ⟨none, a, g.granteeAddress, g.right, g.modifier⟩ target entry right g := by
  obtain ⟨entry, hfound⟩ := h.granteeFound horphan w.directory
  obtain ⟨right, hright, hrules⟩ := heligible
  have hlookup : w.catalog.right g.right = .ok right := Catalog.right_eq_ok_iff.mpr hright
  exact ⟨entry, right, {
    target_found := htarget
    grantee_found := hfound
    right_found := hlookup
    eligible := checkEligibility_revoke_eq_ok_iff.mpr <| by
      cases huser : right.isUserRight with
      | true => exact .inl rfl
      | false => exact .inr (hrules huser).1
    delegated := fun actor hactor => nomatch hactor
    grant_eq := by rw [Catalog.name_of_right hlookup]; rfl }⟩

end Clearance

/-! ## Along a session -/

namespace Session

variable {C E : Type} {catalog : CatalogService C} {evaluator : EvaluatorService E}

/-- What holds of every grant that is cleared to be made, and of every stored grant at the start,
holds of every stored grant after a step. -/
theorem forall_grants_step {P : TargetKey → Grant → Prop} {s : Session C E}
    (hcleared : ∀ config w p target entry right grant,
      Cleared (.inMemory catalog evaluator config) w .grant p target entry right grant →
      P target.key grant)
    (hstored : ∀ k g, g ∈ s.grants k → P k g) (st : Step C E) {k : TargetKey} {g : Grant}
    (hg : g ∈ (s.step catalog evaluator st).grants k) : P k g := by
  rcases s.mutates_or_keeps_grants catalog evaluator st with ⟨μ, p, rfl⟩ | hkeep
  · have ho := s.outcome_step catalog evaluator μ p
    rcases ho.mem_cases hg with hold | ⟨-, target, entry, right, cleared, rfl⟩
    · exact hstored k g hold
    · exact hcleared s.config s.world p target entry right g cleared
  · rw [hkeep] at hg
    exact hstored k g hg

/-- What holds of every grant that is cleared to be made, and of every stored grant at the start,
holds of every stored grant after some steps. -/
theorem forall_grants_run {P : TargetKey → Grant → Prop} {s : Session C E}
    (hcleared : ∀ config w p target entry right grant,
      Cleared (.inMemory catalog evaluator config) w .grant p target entry right grant →
      P target.key grant)
    (hstored : ∀ k g, g ∈ s.grants k → P k g) (steps : List (Step C E)) :
    ∀ k g, g ∈ (s.run catalog evaluator steps).grants k → P k g := by
  induction steps generalizing s with
  | nil => exact hstored
  | cons st steps ih => exact ih fun k g hg => forall_grants_step hcleared hstored st hg

end Session

/-- **No grant gets stuck.**  In a session that starts without grants and in which no right is
redefined, at every moment at which grants of grantees that are gone may be revoked: each grant that
is stored on a target can be revoked under any address of this target and under the type, the
identifier, the right and the modifier in the grant, which returns the grant and removes this one
and no other. -/
theorem no_grant_is_stuck {E : Type} (evaluator : EvaluatorService E) (s : Session Catalog E)
    (steps : List (Session.Step Catalog E)) (hempty : s.world.store = .empty)
    (hext : List.IsChain Catalog.Extends
      (s.world.catalog :: steps.filterMap Session.Step.catalog?))
    (horphan : (s.run Catalog.service evaluator steps).config.orphanRevoke = true) :
    let now := s.run Catalog.service evaluator steps
    ∀ (a : TargetAddress) (t : TargetEntry) (g : Grant),
      now.world.directory.lookupTarget a.type a.locator = .ok t → g ∈ now.grants t.key →
      let revoked := ((now.engine Catalog.service evaluator).revoke none a
        ⟨g.granteeType, .byId, g.granteeId⟩ g.right g.modifier).run now.world
      revoked.1 = .ok [g] ∧
        ∀ k g', g' ∈ revoked.2.store.on k ↔ g' ∈ now.grants k ∧ ¬ (k = t.key ∧ g' = g) := by
  intro now a t g htarget hlisted revoked
  have hinitial : ∀ k g, g ∉ s.grants k := by
    intro k g hg
    unfold Session.grants at hg
    rw [hempty, Ledger.on_empty] at hg
    exact absurd hg List.not_mem_nil
  have heligible : g.EligibleOn now.world.catalog t.type := by
    have hrun : now.Eligible := Session.Eligible.run (fun k g hg => absurd hg (hinitial k g)) hext
    exact hrun t.key g hlisted
  have haddressable : g.Addressable := Session.forall_grants_run
    (P := fun _ g => g.Addressable) (fun _ _ _ _ _ _ _ cleared => cleared.addressable)
    (fun k g hg => absurd hg (hinitial k g)) steps t.key g hlisted
  obtain ⟨entry, right, cleared⟩ := haddressable.cleared evaluator horphan htarget heligible
  obtain ⟨hresult, hstore⟩ := cleared.revoked hlisted
  refine ⟨hresult, fun k g' => ?_⟩
  have hon : revoked.2.store = now.world.store.erase ⟨t.key, g⟩ := hstore
  rw [hon]
  exact Ledger.mem_on_erase

/-- Of two grants, one to an account that is gone and one to all authenticated users, each is
revoked alone. -/
theorem grants_of_gone_account_and_everybody_are_revoked :
    let domain : TargetAddress := ⟨.domain, .byName, "example.com"⟩
    let account : TargetAddress := ⟨.account, .byId, "u-user"⟩
    let everybody : GranteeAddress := ⟨.authenticated, .byName, "whatever"⟩
    let s : Session Catalog Script :=
      ⟨⟨true, true⟩, Sample.directory, Sample.catalog, .empty, .empty, []⟩
    let now := s.run Catalog.service (Script.service true)
      [.mutate .grant ⟨none, domain, ⟨.user, .byName, "da@example.com"⟩, "createAccount", none⟩,
        .mutate .grant ⟨none, account, everybody, "viewFreeBusy", some .deny⟩,
        .directory (Sample.directory.removeGrantee ⟨.user, "u-da"⟩)]
    let gone : Grant := ⟨.user, "u-da", "createAccount", none⟩
    let shared : Grant :=
      ⟨.authenticated, "00000000-0000-0000-0000-000000000000", "viewFreeBusy", some .deny⟩
    let revoke (a : TargetAddress) (g : Grant) :=
      ((now.engine Catalog.service (Script.service true)).revoke none a
        ⟨g.granteeType, .byId, g.granteeId⟩ g.right g.modifier).run now.world
    (revoke domain gone).1 = .ok [gone] ∧ (revoke account shared).1 = .ok [shared] ∧
      shared ∈ (revoke domain gone).2.store.on ⟨.account, "u-user"⟩ ∧
      shared ∉ (revoke account shared).2.store.on ⟨.account, "u-user"⟩ := by
  intro domain account everybody s now gone shared revoke
  have hrevoke := no_grant_is_stuck (Script.service true) s
    [.mutate .grant ⟨none, domain, ⟨.user, .byName, "da@example.com"⟩, "createAccount", none⟩,
      .mutate .grant ⟨none, account, everybody, "viewFreeBusy", some .deny⟩,
      .directory (Sample.directory.removeGrantee ⟨.user, "u-da"⟩)] rfl (.singleton _) rfl
  have hgone := hrevoke domain ⟨.domain, some "d-example", "example.com", none⟩ gone (by rfl)
    (by decide)
  have hshared := hrevoke account (Sample.member .account "u-user" "user@example.com") shared
    (by rfl) (by decide)
  refine ⟨hgone.1, hshared.1, (hgone.2 _ _).mpr ⟨by decide, by decide⟩, fun h => ?_⟩
  exact ((hshared.2 _ _).mp h).2 ⟨rfl, rfl⟩

end Delegation
