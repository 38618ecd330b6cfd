/-
# One store in the place of another

The engine touches its store only through the operations of the store.  So a store whose operations
mirror those of another one, except that it may list grants in an order of its own, can take the
place of that store: every request is answered as before, and leaves the mirror image of the world
that it left before.  The table of grants mirrors the ledger in this way.

## Key constructions

* `StoreRequest`, `StoreService.after` — what a store is asked for, and the state that it ends in.
* `StoreService.Mirrors` — the operations of one store are those of another one along a map of
  their states.
* `Request.Mirrors` — a request does in the image of a world what another one does in the world.
* `Engine.withStore` — the engine with another store.
* `Reply`, `Engine.replies` — what an engine replies to one request after the other.

## Key results

* `GrantTable.mirrors_service` — the table mirrors the ledger.
* `Request.Mirrors.bind` — requests that mirror each other piece by piece mirror each other.
* `Engine.mirrors_answer`, `Engine.mirrors_mutate` — so do the requests to an engine.
* `Engine.replies_withStore` — an engine replies the same over a store that mirrors its own.
* `stores_are_interchangeable` — the table and the ledger agree, and so do engines over them.
-/
import Delegation.Proofs.Listing
import Delegation.Proofs.Session
import Delegation.Proofs.Table

namespace Delegation

variable {D C E S T α β : Type}

/-! ## Stores -/

/-- What a store can be asked for. -/
inductive StoreRequest
  | add (target : TargetEntry) (grants : List Grant)
  | remove (target : TargetEntry) (grants : List Grant)
  | list (target : TargetEntry)

namespace StoreService

variable {f : S → T} {store : StoreService S} {store' : StoreService T}

/-- The state in which one request leaves a store. -/
def perform (store : StoreService S) (s : S) : StoreRequest → S
  | .add target grants => ((store.addGrants target grants).run s).2
  | .remove target grants => ((store.removeGrants target grants).run s).2
  | .list target => ((store.grants target).run s).2

/-- The state in which some requests leave a store, one after the other. -/
def after (store : StoreService S) (s : S) (requests : List StoreRequest) : S :=
  requests.foldl store.perform s

/-- Along a map of their states, the first store does what the second one does.  Listing changes
neither of them, and the first one may list the grants in another order. -/
structure Mirrors (f : S → T) (store' : StoreService T) (store : StoreService S) : Prop where
  addGrants : ∀ target gs s, (store'.addGrants target gs).run (f s) =
    (((store.addGrants target gs).run s).1, f ((store.addGrants target gs).run s).2)
  removeGrants : ∀ target gs s, (store'.removeGrants target gs).run (f s) =
    (((store.removeGrants target gs).run s).1, f ((store.removeGrants target gs).run s).2)
  grants : ∀ target s, ∃ listed listed', (store.grants target).run s = (.ok listed, s) ∧
    (store'.grants target).run (f s) = (.ok listed', f s) ∧ listed'.Perm listed

namespace Mirrors

theorem perform (h : Mirrors f store' store) (s : S) (request : StoreRequest) :
    store'.perform (f s) request = f (store.perform s request) := by
  cases request with
  | add target grants => exact congrArg Prod.snd (h.addGrants target grants s)
  | remove target grants => exact congrArg Prod.snd (h.removeGrants target grants s)
  | list target =>
    obtain ⟨listed, listed', hlisted, hlisted', -⟩ := h.grants target s
    have hkept : store.perform s (.list target) = s := congrArg Prod.snd hlisted
    rw [hkept]
    exact congrArg Prod.snd hlisted'

theorem after (h : Mirrors f store' store) (s : S) (requests : List StoreRequest) :
    store'.after (f s) requests = f (store.after s requests) := by
  induction requests generalizing s with
  | nil => rfl
  | cons request requests ih =>
    show store'.after (store'.perform (f s) request) requests = _
    rw [h.perform]
    exact ih (store.perform s request)

end Mirrors

end StoreService

/-- The table of grants mirrors the ledger. -/
theorem GrantTable.mirrors_service :
    StoreService.Mirrors Ledger.toTable GrantTable.service Ledger.service where
  addGrants target gs l := congrArg (fun t => (Except.ok (), t)) (l.toTable_add target.key gs)
  removeGrants target gs l := by
    show (Except.ok (l.toTable.remove target.key gs).1, (l.toTable.remove target.key gs).2) = _
    rw [l.toTable_remove]
    rfl
  grants target l := by
    obtain ⟨gs, hrows, hperm, -⟩ := l.toTable_on target.key
    exact ⟨l.on target.key, gs, rfl, congrArg (fun result => (result, l.toTable)) hrows, hperm⟩

/-! ## Requests -/

/-- The world with another state of the store. -/
def World.mapStore (f : S → T) (w : World D C E S) : World D C E T :=
  ⟨w.directory, w.catalog, w.evaluator, f w.store, w.log⟩

namespace Request

variable {f : S → T}

/-- The first request does in the image of a world what the second one does in the world. -/
def Mirrors (f : S → T) (m' : Request D C E T α) (m : Request D C E S α) : Prop :=
  ∀ w, m'.run (w.mapStore f) = ((m.run w).1, (m.run w).2.mapStore f)

namespace Mirrors

theorem pure (a : α) :
    Mirrors f (Pure.pure a : Request D C E T α) (Pure.pure a) := fun _ => rfl

theorem throw (e : RequestError) :
    Mirrors f (MonadExcept.throw e : Request D C E T α) (MonadExcept.throw e) := fun _ => rfl

theorem check (result : Except InvalidRequest α) :
    Mirrors f (Request.check result : Request D C E T α) (Request.check result) := by
  cases result with
  | ok a => exact .pure a
  | error e => exact .throw _

/-! Nothing but a call of the store looks at the state of the store. -/

theorem tryDirectory (op : Operation D α) :
    Mirrors f (Request.tryDirectory op : Request D C E T _) (Request.tryDirectory op) :=
  fun _ => rfl

theorem directory (op : Operation D α) :
    Mirrors f (Request.directory op : Request D C E T α) (Request.directory op) := fun _ => rfl

theorem catalog (op : Operation C α) :
    Mirrors f (Request.catalog op : Request D C E T α) (Request.catalog op) := fun _ => rfl

theorem evaluator (op : Operation E α) :
    Mirrors f (Request.evaluator op : Request D C E T α) (Request.evaluator op) := fun _ => rfl

theorem note (events : List Event) :
    Mirrors f (Request.note events : Request D C E T Unit) (Request.note events) := fun _ => rfl

theorem store {op' : Operation T α} {op : Operation S α}
    (h : ∀ s, op'.run (f s) = ((op.run s).1, f (op.run s).2)) :
    Mirrors f (Request.store op' : Request D C E T α) (Request.store op) := by
  intro w
  rw [run_store, run_store]
  show (orRefuse (op'.run (f w.store)).1, World.mk _ _ _ (op'.run (f w.store)).2 _) = _
  rw [h w.store]
  rfl

/-- Requests that mirror each other piece by piece mirror each other. -/
theorem bind {m' : Request D C E T α} {m : Request D C E S α} {n' : α → Request D C E T β}
    {n : α → Request D C E S β} (hm : Mirrors f m' m) (hn : ∀ a, Mirrors f (n' a) (n a)) :
    Mirrors f (m' >>= n') (m >>= n) := by
  intro w
  have hw := hm w
  cases h : (m.run w).1 with
  | ok a =>
    rw [h] at hw
    rw [run_bind_of_ok h, run_bind_of_ok (congrArg Prod.fst hw), congrArg Prod.snd hw]
    exact hn a _
  | error e =>
    rw [h] at hw
    rw [run_bind_of_error h, run_bind_of_error (congrArg Prod.fst hw), congrArg Prod.snd hw]

end Mirrors

end Request

/-! ## Engines -/

/-- The engine with another store. -/
def Engine.withStore (engine : Engine D C E S) (store : StoreService T) : Engine D C E T :=
  ⟨⟨engine.directory, engine.catalog, engine.evaluator, store⟩, engine.config⟩

namespace Engine

open Request

section Requests

variable (engine : Engine D C E S) {f : S → T} {store' : StoreService T}

theorem mirrors_lookupAccount (account : Locator) :
    Mirrors f ((engine.withStore store').lookupAccount account) (engine.lookupAccount account) := by
  refine .bind (.directory _) fun entry => ?_
  split
  · exact .pure _
  · exact .throw _

theorem mirrors_evaluate (target : TargetEntry) (grantee : GranteeEntry)
    (expandSet expandGet : Bool) :
    Mirrors f ((engine.withStore store').evaluate target grantee expandSet expandGet)
      (engine.evaluate target grantee expandSet expandGet) :=
  .bind (.evaluator _) fun _ => .pure _

theorem mirrors_collect (contributions : List (TargetType × Contribution)) (report : RightsReport) :
    Mirrors f (collect report contributions : Request D C E T RightsReport)
      (collect report contributions) := by
  induction contributions generalizing report with
  | nil => exact .pure _
  | cons head rest ih =>
    obtain ⟨type, c⟩ := head
    refine .bind (.note _) fun _ => ?_
    split
    · exact ih _
    · exact .throw _

theorem mirrors_checkRight (target : TargetAddress) (account : Locator) (right : String)
    (attrs : Option AttrValues) :
    Mirrors f ((engine.withStore store').checkRight target account right attrs)
      (engine.checkRight target account right attrs) := by
  refine .bind (.directory _) fun target => ?_
  refine .bind (engine.mirrors_lookupAccount _) fun account => ?_
  refine .bind (.catalog _) fun right => ?_
  split
  · exact fun w => rfl
  · refine .bind (.evaluator _) fun decision => ?_
    split
    · exact .bind (.note _) fun _ => .pure _
    · exact .pure _

theorem mirrors_findGrantee (μ : Mutation) (a : GranteeAddress) :
    Mirrors f ((engine.withStore store').findGrantee μ a) (engine.findGrantee μ a) := by
  cases μ with
  | grant => exact .bind (.directory _) fun _ => .pure _
  | revoke =>
    refine .bind (.tryDirectory _) fun result => ?_
    cases result with
    | ok entry => exact .pure _
    | error e =>
      cases e with
      | notFound kind key =>
        -- Whether a grantee may be gone is configured alike for both engines.
        show Mirrors f (if kind.isMissingGrantee && engine.config.orphanRevoke then _ else _)
          (if kind.isMissingGrantee && engine.config.orphanRevoke then _ else _)
        split
        · refine .bind (.note _) fun _ => ?_
          cases a.locator.mode with
          | byId => exact .pure _
          | byName => exact .throw _
        · exact .throw _
      | _ => exact .throw _

theorem mirrors_verify (actor : Option GranteeEntry) (target : TargetEntry)
    (entry : Option GranteeEntry) (right : Right) (μ : Mutation) :
    Mirrors f ((engine.withStore store').verify actor target entry right μ)
      (engine.verify actor target entry right μ) := by
  refine .bind (.check _) fun _ => ?_
  cases actor with
  | none => exact .pure _
  | some actor =>
    cases entry with
    | none => exact .pure _
    | some entry =>
      refine .bind (.evaluator _) fun decision => ?_
      split
      · exact .bind (.note _) fun _ => .throw _
      · exact .evaluator _

theorem mirrors_clear (μ : Mutation) (p : Proposal) :
    Mirrors f ((engine.withStore store').clear μ p) (engine.clear μ p) := by
  refine .bind (.directory _) fun target => ?_
  refine .bind (engine.mirrors_findGrantee _ _) fun found => ?_
  refine .bind (.catalog _) fun right => ?_
  exact .bind (engine.mirrors_verify _ _ _ _ _) fun _ => .pure _

theorem mirrors_carryOut (h : store'.Mirrors f engine.store) (target : TargetEntry) (grant : Grant)
    (μ : Mutation) :
    Mirrors f ((engine.withStore store').carryOut target grant μ)
      (engine.carryOut target grant μ) := by
  cases μ with
  | grant => exact .bind (.store (h.addGrants _ _)) fun _ => .bind (.note _) fun _ => .pure _
  | revoke =>
    refine .bind (.store (h.removeGrants _ _)) fun removed => ?_
    split
    · exact .bind (.throw _) fun _ => .bind (.note _) fun _ => .pure _
    · exact .bind (.note _) fun _ => .pure _

/-- A change comes to the same over a store that mirrors the engine's own. -/
theorem mirrors_mutate (h : store'.Mirrors f engine.store) (μ : Mutation) (p : Proposal) :
    Mirrors f ((engine.withStore store').mutate μ p) (engine.mutate μ p) := by
  rw [mutate_eq, mutate_eq]
  exact .bind (engine.mirrors_clear μ p) fun _ => engine.mirrors_carryOut h _ _ _

end Requests

section InMemory

variable {engine : Engine Directory C E S} {f : S → T} {store' : StoreService T}

/-- Whatever the order in which a store lists grants, they are shown alike. -/
theorem mirrors_grants (hd : engine.directory = Directory.service)
    (h : store'.Mirrors f engine.store) (a : TargetAddress) :
    Mirrors f ((engine.withStore store').grants a) (engine.grants a) := by
  intro w
  have hd' : (engine.withStore store').directory = Directory.service := hd
  cases ht : w.directory.lookupTarget a.type a.locator with
  | error e =>
    have ht' : (w.mapStore f).directory.lookupTarget a.type a.locator = .error e := ht
    rw [run_grants_of_error hd ht, run_grants_of_error hd' ht']
  | ok t =>
    have ht' : (w.mapStore f).directory.lookupTarget a.type a.locator = .ok t := ht
    obtain ⟨listed, listed', hlisted, hlisted', hperm⟩ := h.grants t w.store
    rw [run_grants hd ht hlisted, run_grants hd' ht' hlisted']
    exact congrArg (fun acl => (Except.ok acl, w.mapStore f))
      (Acl.ofGrants_congr (fun _ => hperm.mem_iff) fun _ _ => rfl)

/-- A query is answered alike over a store that mirrors the engine's own. -/
theorem mirrors_answer (hd : engine.directory = Directory.service)
    (h : store'.Mirrors f engine.store) (q : Query) :
    Mirrors f ((engine.withStore store').answer q) (engine.answer q) := by
  cases q with
  | right name => exact .bind (.catalog _) fun _ => .pure _
  | allRights type => exact .bind (.bind (.catalog _) fun _ => .pure _) fun _ => .pure _
  | effectiveRights target account expandSet expandGet =>
    refine .bind (.bind (.directory _) fun target => ?_) fun _ => .pure _
    exact .bind (engine.mirrors_lookupAccount _) fun _ => engine.mirrors_evaluate _ _ _ _
  | creationRights type domain classOfService account =>
    refine .bind (.bind (.directory _) fun target => ?_) fun _ => .pure _
    exact .bind (engine.mirrors_lookupAccount _) fun _ => engine.mirrors_evaluate _ _ _ _
  | allEffectiveRights grantee expandSet expandGet =>
    refine .bind (.bind (.directory _) fun entry => ?_) fun _ => .pure _
    exact .bind (.evaluator _) fun _ => mirrors_collect _ _
  | checkRight target account right attrs =>
    exact .bind (engine.mirrors_checkRight _ _ _ _) fun _ => .pure _
  | grants target => exact .bind (mirrors_grants hd h target) fun _ => .pure _

end InMemory

end Engine

/-! ## Replies -/

/-- What an answered request is answered with. -/
inductive Reply
  | removed (grants : List Grant)
  | answer (a : Answer)

namespace Engine

/-- The replies to the requests of a session that begins in a world. -/
def replies (engine : Engine Directory C E S) (w : World Directory C E S) :
    List (Session.Step C E) → List (Except RequestError Reply)
  | [] => []
  | .mutate μ p :: steps =>
    let (result, w) := (engine.mutate μ p).run w
    result.map .removed :: engine.replies w steps
  | .ask q :: steps =>
    let (result, w) := (engine.answer q).run w
    result.map .answer :: engine.replies w steps
  | .directory d :: steps => engine.replies { w with directory := d } steps
  | .catalog c :: steps => engine.replies { w with catalog := c } steps
  | .evaluator e :: steps => engine.replies { w with evaluator := e } steps
  | .configure config :: steps => replies { engine with config := config } w steps

/-- An engine replies the same over a store that mirrors its own. -/
theorem replies_withStore (engine : Engine Directory C E S) {f : S → T} {store' : StoreService T}
    (hd : engine.directory = Directory.service) (h : store'.Mirrors f engine.store)
    (w : World Directory C E S) (steps : List (Session.Step C E)) :
    (engine.withStore store').replies (w.mapStore f) steps = engine.replies w steps := by
  -- The engine changes along the run, because a step can configure it.
  induction steps generalizing engine w with
  | nil => rfl
  | cons st steps ih =>
    cases st with
    | mutate μ p =>
      unfold replies
      rw [engine.mirrors_mutate h μ p w]
      exact congrArg (_ :: ·) (ih engine hd h _)
    | ask q =>
      unfold replies
      rw [mirrors_answer hd h q w]
      exact congrArg (_ :: ·) (ih engine hd h _)
    | directory d => exact ih engine hd h { w with directory := d }
    | catalog c => exact ih engine hd h { w with catalog := c }
    | evaluator e => exact ih engine hd h { w with evaluator := e }
    | configure config => exact ih { engine with config := config } hd h w

end Engine

/-- **Stores are interchangeable.**  After any requests from empty on, the table of grants and the
ledger agree.  Asked to remove grants, both return those of them that are listed, each once and in
the order of the request.  Both list the same grants on a target, each once: the ledger in the order
of grants, the table in the order of the texts in its rows, all of which it can read.  So an engine
over entries in memory replies the same to all requests of a session, whichever of the two stores
it works with. -/
theorem stores_are_interchangeable (requests : List StoreRequest) :
    let ledger := Ledger.service.after Keyed.empty requests
    let table := GrantTable.service.after Keyed.empty requests
    (∀ target, ∃ listed rows,
      ((Ledger.service.grants target).run ledger).1 = .ok listed ∧
      ((GrantTable.service.grants target).run table).1 = .ok rows ∧
      rows.Perm listed ∧ listed.Nodup ∧ rows.Nodup ∧
      listed.Pairwise (fun a b => compare a b = .lt) ∧
      rows.Pairwise (fun a b =>
        compare (GrantRow.ofGrant target.key a) (GrantRow.ofGrant target.key b) = .lt) ∧
      ∀ gs,
        let removed := (gs.filter (· ∈ listed)).eraseDups
        ((Ledger.service.removeGrants target gs).run ledger).1 = .ok removed ∧
        ((GrantTable.service.removeGrants target gs).run table).1 = .ok removed ∧
        ((Ledger.service.addGrants target gs).run ledger).1 = .ok () ∧
        ((GrantTable.service.addGrants target gs).run table).1 = .ok ()) ∧
    ∀ (C E : Type) (catalog : CatalogService C) (evaluator : EvaluatorService E) (config : Config)
        (d : Directory) (c : C) (e : E) (log : List Event) (steps : List (Session.Step C E)),
      let engine := Engine.inMemory catalog evaluator config
      (engine.withStore GrantTable.service).replies ⟨d, c, e, table, log⟩ steps =
        engine.replies ⟨d, c, e, ledger, log⟩ steps := by
  intro ledger table
  have hmirrors := GrantTable.mirrors_service
  have htable : table = ledger.toTable := by
    rw [← hmirrors.after, Ledger.toTable_empty]
  refine ⟨fun target => ?_, fun C E catalog evaluator config d c e log steps => ?_⟩
  · obtain ⟨rows, hrows, hperm, hascending⟩ := ledger.toTable_on target.key
    have hremoved (gs : List Grant) :
        ((Ledger.service.removeGrants target gs).run ledger).1 =
          .ok (gs.filter (· ∈ ledger.on target.key)).eraseDups :=
      congrArg Except.ok (ledger.fst_remove target.key gs)
    rw [htable]
    refine ⟨ledger.on target.key, rows, rfl, hrows, hperm, ledger.nodup_on _,
      hperm.nodup_iff.mpr (ledger.nodup_on _), ledger.pairwise_on _, hascending,
      fun gs => ⟨hremoved gs, ?_, rfl, ?_⟩⟩
    · rw [hmirrors.removeGrants]
      exact hremoved gs
    · rw [hmirrors.addGrants]
      rfl
  · rw [htable]
    exact Engine.replies_withStore (.inMemory catalog evaluator config) rfl hmirrors
      ⟨d, c, e, ledger, log⟩ steps

end Delegation
