/-
# What a query for grants lists

Asked for the grants on a target that it finds, an engine lists what its store lists.  Each grant is
shown under the name that a look-up of its grantee finds, or under the identifier of the grantee.
If the entries are kept in memory, these names depend on the directory alone, so the list depends
neither on the order in which the store lists the grants nor on how often it does.

## Key constructions

* `Resolved` — names that look-ups of some grantees have found, and no others.
* `Acl.named` — grants with one look-up for each of them.
* `DirectoryService.AnsweredBy` — look-ups that are functions of the entries of a directory.
* `Directory.shownName` — the name under which a grant is shown.

## Key results

* `Engine.resolveNames_cases` — names that are looked up grantee by grantee.
* `Engine.run_grants_answered` — the query for the grants on a target shows what its store lists,
  under the names that look-ups find.
* `Engine.run_grants`, `Engine.grants_inMemory` — of an engine in memory this is what is stored.
-/
import Delegation.Proofs.Collecting
import Delegation.Proofs.Outcome

namespace Delegation

open Std

/-! ## Names of grantees -/

/-- The name that a look-up of a grantee finds. -/
def foundName? : Except ServiceError GranteeEntry → Option String
  | .ok entry => some entry.name
  | .error _ => none

/-- Why a look-up of a grantee fails, unless the grantee is only missing. -/
def failure? : Except ServiceError GranteeEntry → Option ServiceError
  | .ok _ | .error (.notFound _ _) => none
  | .error e => some e

/-- The names are those that look-ups of the grantees `ks` find, and there are no others. -/
def Resolved (answer : GranteeKey → Except ServiceError GranteeEntry) (ks : List GranteeKey)
    (names : List (GranteeKey × String)) : Prop :=
  ∀ k, names.lookup k = if k ∈ ks then foundName? (answer k) else none

namespace Resolved

variable {answer : GranteeKey → Except ServiceError GranteeEntry} {ks : List GranteeKey}
  {names : List (GranteeKey × String)} {k : GranteeKey} {name : String}

theorem nil : Resolved answer [] [] := fun _ => rfl

/-- Only a grantee that was looked up and found has a name. -/
theorem found_of_isSome (h : Resolved answer ks names) (hk : (names.lookup k).isSome) :
    k ∈ ks ∧ failure? (answer k) = none := by
  rw [h k] at hk
  split at hk
  next hmem =>
    refine ⟨hmem, ?_⟩
    cases ha : answer k with
    | ok entry => rfl
    | error e =>
      rw [ha] at hk
      cases hk
  next => cases hk

/-- A grantee that was looked up before, or has no name, needs no new name. -/
theorem skip (h : Resolved answer ks names) (hk : k ∈ ks ∨ foundName? (answer k) = none) :
    Resolved answer (ks ++ [k]) names := by
  intro k'
  rw [h k']
  by_cases hk' : k' = k
  · subst hk'
    rcases hk with hmem | hgone
    · rw [if_pos hmem, if_pos (List.mem_append_left _ hmem)]
    · simp [hgone]
  · simp [hk']

theorem found (h : Resolved answer ks names) (hname : foundName? (answer k) = some name) :
    Resolved answer (ks ++ [k]) ((k, name) :: names) := by
  intro k'
  rw [List.lookup_cons]
  by_cases hk' : k' = k
  · subst hk'
    simp [hname]
  · have hbeq : (k' == k) = false := by simpa using hk'
    simp [hbeq, h k', hk']

end Resolved

/-- The list of grants under the names that look-ups of their grantees find.  A look-up that fails,
but not because the grantee is missing, is passed on; of several such look-ups the first one is. -/
def Acl.named (answer : GranteeKey → Except ServiceError GranteeEntry) (gs : List Grant) :
    Except RequestError Acl :=
  match gs.findSome? fun g => failure? (answer g.granteeKey) with
  | some e => .error (.ofService e)
  | none => .ok (.ofGrants (fun g => (foundName? (answer g.granteeKey)).getD g.granteeId) gs)

theorem Acl.named_eq_error {answer : GranteeKey → Except ServiceError GranteeEntry}
    {gs : List Grant} {e : ServiceError}
    (h : (gs.findSome? fun g => failure? (answer g.granteeKey)) = some e) :
    named answer gs = .error (.ofService e) := by
  unfold named
  rw [h]

theorem Acl.named_eq_ok {answer : GranteeKey → Except ServiceError GranteeEntry}
    {gs : List Grant} (h : ∀ g ∈ gs, failure? (answer g.granteeKey) = none) :
    named answer gs =
      .ok (.ofGrants (fun g => (foundName? (answer g.granteeKey)).getD g.granteeId) gs) := by
  unfold named
  rw [List.findSome?_eq_none_iff.mpr h]

/-! ## Directories that answer look-ups -/

/-- The look-ups of a directory are answered by functions of its entries, and change nothing. -/
structure DirectoryService.AnsweredBy {D : Type} (service : DirectoryService D)
    (target : D → TargetType → Locator → Except ServiceError TargetEntry)
    (grantee : D → GranteeType → Locator → Except ServiceError GranteeEntry) : Prop where
  lookupTarget : ∀ type loc d, (service.lookupTarget type loc).run d = (target d type loc, d)
  lookupGrantee : ∀ type loc d, (service.lookupGrantee type loc).run d = (grantee d type loc, d)

namespace Engine

open Request

variable {D C E S : Type} {engine : Engine D C E S} {w : World D C E S}
  {target : D → TargetType → Locator → Except ServiceError TargetEntry}
  {grantee : D → GranteeType → Locator → Except ServiceError GranteeEntry}
  {a : TargetAddress} {t : TargetEntry} {gs : List Grant}

/-- Looking names up fails with the first look-up that fails, but not because a grantee is missing;
otherwise every grantee is looked up, however often it is met. -/
theorem resolveNames_cases (hd : engine.directory.AnsweredBy target grantee) (gs : List Grant)
    {ks : List GranteeKey} {names : List (GranteeKey × String)} :
    let answer (k : GranteeKey) := grantee w.directory k.type ⟨.byId, k.id⟩
    let failed := gs.findSome? fun g => failure? (answer g.granteeKey)
    Resolved answer ks names →
      (∃ e, failed = some e ∧ (engine.resolveNames gs names).run w = (.error (.ofService e), w)) ∨
      failed = none ∧ ∃ found, (engine.resolveNames gs names).run w = (.ok found, w) ∧
        Resolved answer (ks ++ gs.map Grant.granteeKey) found := by
  intro answer failed h
  induction gs generalizing ks names with
  | nil =>
    rw [List.map_nil, List.append_nil]
    exact .inr ⟨rfl, names, rfl, h⟩
  | cons g gs ih =>
    have hcons : failed = (failure? (answer g.granteeKey)).or
        (gs.findSome? fun g => failure? (answer g.granteeKey)) := by
      unfold failed
      rw [List.findSome?_cons]
      cases failure? (answer g.granteeKey) <;> rfl
    rw [List.map_cons, List.append_cons, hcons]
    unfold resolveNames
    by_cases hknown : (names.lookup g.granteeKey).isSome
    · obtain ⟨hmem, hfound⟩ := h.found_of_isSome hknown
      rw [if_pos hknown, hfound, Option.none_or]
      exact ih (h.skip (.inl hmem))
    · have hask :
          (tryDirectory (engine.directory.lookupGrantee g.granteeType ⟨.byId, g.granteeId⟩) :
            Request D C E S _).run w = (.ok (answer g.granteeKey), w) := by
        rw [run_tryDirectory, hd.lookupGrantee]
        rfl
      rw [if_neg hknown, run_bind, hask]
      cases hg : answer g.granteeKey with
      | ok entry => exact ih (h.found (congrArg foundName? hg))
      | error e =>
        cases e with
        | notFound kind key => exact ih (h.skip (.inr (congrArg foundName? hg)))
        | _ => exact .inl ⟨_, rfl, rfl⟩

theorem run_lookupTarget_answered (hd : engine.directory.AnsweredBy target grantee)
    (a : TargetAddress) :
    (engine.lookupTarget a).run w = (orRefuse (target w.directory a.type a.locator), w) := by
  unfold lookupTarget
  rw [run_directory, hd.lookupTarget]

/-- Asked for the grants on a target that it finds, an engine shows what its store lists under the
names that look-ups find, or under the identifiers of the grantees. -/
theorem run_grants_answered (engine : Engine D C E S)
    (hd : engine.directory.AnsweredBy target grantee)
    (ht : target w.directory a.type a.locator = .ok t) {s : S}
    (hs : (engine.store.grants t).run w.store = (.ok gs, s)) :
    (engine.grants a).run w =
      (if engine.config.resolveGranteeNames then
          Acl.named (fun k => grantee w.directory k.type ⟨.byId, k.id⟩) gs
        else .ok (.ofGrants Grant.granteeId gs),
        { w with store := s }) := by
  have hlisted : (store (engine.store.grants t) : Request D C E S _).run w =
      (.ok gs, { w with store := s }) := by
    rw [run_store, hs]
    rfl
  unfold grants
  rw [run_bind, run_lookupTarget_answered hd, ht, orRefuse_ok]
  dsimp only
  rw [run_bind, hlisted]
  dsimp only
  split
  next =>
    rcases engine.resolveNames_cases (w := { w with store := s }) hd gs Resolved.nil with
      ⟨e, hfailed, hrun⟩ | ⟨hfailed, found, hrun, hresolved⟩
    · rw [run_bind, hrun, Acl.named_eq_error hfailed]
    · rw [run_bind, hrun, Acl.named_eq_ok (List.findSome?_eq_none_iff.mp hfailed)]
      refine congrArg (fun acl => (Except.ok acl, { w with store := s }))
        (Acl.ofGrants_congr (fun _ => Iff.rfl) fun g hg => ?_)
      rw [hresolved, if_pos (List.mem_append_right _ (List.mem_map_of_mem hg))]
  next => rfl

end Engine

/-! ## Directories in memory -/

/-- The name of the grantee with an identifier. -/
def Directory.nameOf? (d : Directory) (k : GranteeKey) : Option String :=
  (d.grantee? k.type ⟨.byId, k.id⟩).map GranteeEntry.name

/-- The name under which a grant is shown: that of its grantee, if names are shown and there is
one, and its identifier otherwise. -/
def Directory.shownName (d : Directory) (config : Config) (g : Grant) : String :=
  if config.resolveGranteeNames then (d.nameOf? g.granteeKey).getD g.granteeId else g.granteeId

theorem Directory.answeredBy_service :
    service.AnsweredBy Directory.lookupTarget Directory.lookupGrantee :=
  ⟨fun _ _ _ => rfl, fun _ _ _ => rfl⟩

/-- The look-up of a grantee in memory fails only because the grantee is missing. -/
theorem Directory.failure?_lookupGrantee (d : Directory) (type : GranteeType) (loc : Locator) :
    failure? (d.lookupGrantee type loc) = none := by
  rw [lookupGrantee_eq]
  cases d.grantee? type loc <;> rfl

theorem Directory.foundName?_lookupGrantee (d : Directory) (k : GranteeKey) :
    foundName? (d.lookupGrantee k.type ⟨.byId, k.id⟩) = d.nameOf? k := by
  rw [lookupGrantee_eq]
  unfold nameOf?
  cases d.grantee? k.type ⟨.byId, k.id⟩ <;> rfl

namespace Engine

open Request

variable {C E S : Type} {engine : Engine Directory C E S} {w : World Directory C E S}

/-- Asked for the grants on a target that it does not find, an engine says so. -/
theorem run_grants_of_error (hd : engine.directory = Directory.service) {a : TargetAddress}
    {e : ServiceError} (ht : w.directory.lookupTarget a.type a.locator = .error e) :
    (engine.grants a).run w = (.error (.ofService e), w) := by
  unfold grants
  rw [run_bind, run_lookupTarget_answered (hd ▸ Directory.answeredBy_service), ht]
  rfl

/-- Asked for the grants on a target that it finds, an engine shows what its store lists. -/
theorem run_grants (hd : engine.directory = Directory.service) {a : TargetAddress}
    {t : TargetEntry} {gs : List Grant} (ht : w.directory.lookupTarget a.type a.locator = .ok t)
    (hs : (engine.store.grants t).run w.store = (.ok gs, w.store)) :
    (engine.grants a).run w =
      (.ok (.ofGrants (w.directory.shownName engine.config) gs), w) := by
  rw [engine.run_grants_answered (hd ▸ Directory.answeredBy_service) ht hs,
    Acl.named_eq_ok fun g _ => w.directory.failure?_lookupGrantee _ _]
  simp only [Directory.foundName?_lookupGrantee]
  unfold Directory.shownName
  split <;> rfl

/-- Asked for the grants on a target that it finds, an engine in memory lists what is stored. -/
theorem grants_inMemory {C E : Type} (catalog : CatalogService C) (evaluator : EvaluatorService E)
    (config : Config) (w : World Directory C E Ledger) {a : TargetAddress} {t : TargetEntry}
    (h : w.directory.lookupTarget a.type a.locator = .ok t) :
    ∃ acl, (((inMemory catalog evaluator config).grants a).run w).1 = .ok acl ∧
      acl.grants = w.store.on t.key := by
  refine ⟨_, congrArg Prod.fst (run_grants rfl h rfl), ?_⟩
  exact Acl.grants_ofGrants _ (Ledger.pairwise_on _ _)

end Engine

end Delegation
