/-
# Sessions

A session is an engine in memory that is asked one thing after the other, while its directory, its
catalog, its evaluator and its configuration change in between.

## Key constructions

* `Query`, `Engine.answer` — the requests that ask and change no grants.
* `Session` — the configuration of an engine with the world that it works in.
* `Session.Step` — a request, or a change of what surrounds the grants.
* `Session.run` — one step after the other.

## Key results

* `Engine.keeps_answer` — what a query leaves alone.
* `Session.outcome_step` — what a change of grants comes to.
* `Session.mutates_or_keeps_grants` — only a change of grants touches the grants.
-/
import Delegation.Proofs.Outcome

namespace Delegation

/-! ## Queries -/

/-- A request that asks and changes no grants. -/
inductive Query
  | right (name : String)
  | allRights (type : Option TargetType)
  | effectiveRights (target : TargetAddress) (account : Locator) (expandSet expandGet : Bool)
  | creationRights (type : TargetType) (domain classOfService : Option Locator) (account : Locator)
  | allEffectiveRights (grantee : GranteeAddress) (expandSet expandGet : Bool)
  | checkRight (target : TargetAddress) (account : Locator) (right : String)
    (attrs : Option AttrValues)
  | grants (target : TargetAddress)

/-- What a query is answered with. -/
inductive Answer
  | right (r : Right)
  | rights (rs : List Right)
  | snapshot (s : Snapshot)
  | report (r : RightsReport)
  | decision (d : Decision)
  | acl (acl : Acl)

namespace Engine

open Request

variable {D C E S γ : Type} (engine : Engine D C E S) {part : World D C E S → γ}

/-- Answers a query. -/
def answer : Query → Request D C E S Answer
  | .right name => return .right (← engine.right name)
  | .allRights type => return .rights (← engine.allRights type)
  | .effectiveRights target account expandSet expandGet =>
    return .snapshot (← engine.effectiveRights target account expandSet expandGet)
  | .creationRights type domain classOfService account =>
    return .snapshot (← engine.creationRights type domain classOfService account)
  | .allEffectiveRights grantee expandSet expandGet =>
    return .report (← engine.allEffectiveRights grantee expandSet expandGet)
  | .checkRight target account right attrs =>
    return .decision (← engine.checkRight target account right attrs)
  | .grants target => return .acl (← engine.grants target)

theorem keeps_lookupAccount (hd : ∀ w d, part { w with directory := d } = part w)
    (account : Locator) : Keeps part (engine.lookupAccount account) := by
  refine .bind (.directory hd _) fun entry => ?_
  split
  · exact .pure _
  · exact .throw _

theorem keeps_evaluate (he : ∀ w e, part { w with evaluator := e } = part w)
    (target : TargetEntry) (grantee : GranteeEntry) (expandSet expandGet : Bool) :
    Keeps part (engine.evaluate target grantee expandSet expandGet) :=
  .bind (.evaluator he _) fun _ => .pure _

theorem keeps_collect (hl : ∀ w log, part { w with log := log } = part w)
    (contributions : List (TargetType × Contribution)) (report : RightsReport) :
    Keeps part (collect report contributions : Request D C E S RightsReport) := by
  induction contributions generalizing report with
  | nil => exact .pure _
  | cons head rest ih =>
    obtain ⟨type, c⟩ := head
    refine .bind (.note hl _) fun _ => ?_
    split
    · exact ih _
    · exact .throw _

theorem keeps_resolveNames (hd : ∀ w d, part { w with directory := d } = part w)
    (grants : List Grant) (names : List (GranteeKey × String)) :
    Keeps part (engine.resolveNames grants names) := by
  induction grants generalizing names with
  | nil => exact .pure _
  | cons g gs ih =>
    unfold resolveNames
    split
    · exact ih _
    · refine .bind (.tryDirectory hd _) fun result => ?_
      split
      · exact ih _
      · exact ih _
      · exact .throw _

theorem keeps_checkRight (h : engine.Spares part) (target : TargetAddress) (account : Locator)
    (right : String) (attrs : Option AttrValues) :
    Keeps part (engine.checkRight target account right attrs) := by
  refine .bind (.directory h.directory _) fun target => ?_
  refine .bind (engine.keeps_lookupAccount h.directory _) fun account => ?_
  refine .bind (h.right _) fun right => ?_
  split
  · exact fun w => rfl
  · refine .bind (.evaluator h.evaluator _) fun decision => ?_
    split
    · exact .bind (.note h.log _) fun _ => .pure _
    · exact .pure _

theorem keeps_grants (hd : ∀ w d, part { w with directory := d } = part w)
    (hs : ∀ target, Keeps part (.store (engine.store.grants target))) (target : TargetAddress) :
    Keeps part (engine.grants target) := by
  refine .bind (.directory hd _) fun target => ?_
  refine .bind (hs _) fun grants => ?_
  split
  · exact .bind (engine.keeps_resolveNames hd _ _) fun _ => .pure _
  · exact .bind (.pure _) fun _ => .pure _

/-- A query leaves alone what a clearance spares, if the catalog and the store keep it when they
are asked for what they hold. -/
theorem keeps_answer (h : engine.Spares part)
    (hc : Keeps part (.catalog engine.catalog.allRights))
    (hs : ∀ target, Keeps part (.store (engine.store.grants target))) (q : Query) :
    Keeps part (engine.answer q) := by
  cases q with
  | right name => exact .bind (h.right name) fun _ => .pure _
  | allRights type => exact .bind (.bind hc fun _ => .pure _) fun _ => .pure _
  | effectiveRights target account expandSet expandGet =>
    refine .bind (.bind (.directory h.directory _) fun target => ?_) fun _ => .pure _
    exact .bind (engine.keeps_lookupAccount h.directory _) fun _ =>
      engine.keeps_evaluate h.evaluator _ _ _ _
  | creationRights type domain classOfService account =>
    refine .bind (.bind (.directory h.directory _) fun target => ?_) fun _ => .pure _
    exact .bind (engine.keeps_lookupAccount h.directory _) fun _ =>
      engine.keeps_evaluate h.evaluator _ _ _ _
  | allEffectiveRights grantee expandSet expandGet =>
    refine .bind (.bind (.directory h.directory _) fun entry => ?_) fun _ => .pure _
    exact .bind (.evaluator h.evaluator _) fun _ => keeps_collect h.log _ _
  | checkRight target account right attrs =>
    exact .bind (engine.keeps_checkRight h _ _ _ _) fun _ => .pure _
  | grants target => exact .bind (engine.keeps_grants h.directory hs _) fun _ => .pure _

end Engine

/-! ## Sessions -/

/-- The configuration of an engine in memory, and the world that it works in. -/
structure Session (C E : Type) where
  config : Config
  world : World Directory C E Ledger

namespace Session

variable {C E : Type}

/-- What can happen in a session: a request, or a change of what surrounds the grants. -/
inductive Step (C E : Type)
  | mutate (μ : Mutation) (p : Proposal)
  | ask (q : Query)
  | directory (d : Directory)
  | catalog (c : C)
  | evaluator (e : E)
  | configure (config : Config)

/-- The grants on a target. -/
def grants (s : Session C E) (k : TargetKey) : List Grant := s.world.store.on k

variable (catalog : CatalogService C) (evaluator : EvaluatorService E)

/-- The engine of a session. -/
def engine (s : Session C E) : Engine Directory C E Ledger := .inMemory catalog evaluator s.config

/-- The result of a change of grants. -/
def result (s : Session C E) (μ : Mutation) (p : Proposal) : Except RequestError (List Grant) :=
  (((s.engine catalog evaluator).mutate μ p).run s.world).1

/-- The session after a step. -/
def step (s : Session C E) : Step C E → Session C E
  | .mutate μ p => { s with world := (((s.engine catalog evaluator).mutate μ p).run s.world).2 }
  | .ask q => { s with world := (((s.engine catalog evaluator).answer q).run s.world).2 }
  | .directory d => { s with world.directory := d }
  | .catalog c => { s with world.catalog := c }
  | .evaluator e => { s with world.evaluator := e }
  | .configure config => { s with config := config }

/-- The session after some steps. -/
def run (s : Session C E) (steps : List (Step C E)) : Session C E :=
  steps.foldl (step catalog evaluator) s

theorem run_concat (s : Session C E) (steps : List (Step C E)) (st : Step C E) :
    s.run catalog evaluator (steps ++ [st]) =
      (s.run catalog evaluator steps).step catalog evaluator st := by
  unfold run
  rw [List.foldl_append]
  rfl

/-! ## What a step does to the grants -/

/-- A change of grants has one of the outcomes. -/
theorem outcome_step (s : Session C E) (μ : Mutation) (p : Proposal) :
    Outcome (s.engine catalog evaluator) s.world p μ (s.result catalog evaluator μ p)
      (s.step catalog evaluator (.mutate μ p)).world.store :=
  Engine.outcome_mutate catalog evaluator s.config s.world μ p

/-- A query leaves the grants alone. -/
theorem store_step_ask (s : Session C E) (q : Query) :
    (s.step catalog evaluator (.ask q)).world.store = s.world.store :=
  Engine.keeps_answer _ (Engine.spares_store _) (.catalog (fun _ _ => rfl) _) (fun _ _ => rfl) q
    s.world

/-- Nothing but a change of grants touches the grants. -/
theorem mutates_or_keeps_grants (s : Session C E) (st : Step C E) :
    (∃ μ p, st = .mutate μ p) ∨ ∀ k, (s.step catalog evaluator st).grants k = s.grants k := by
  cases st with
  | mutate μ p => exact .inl ⟨μ, p, rfl⟩
  | ask q => exact .inr fun k => congrArg (Ledger.on · k) (s.store_step_ask catalog evaluator q)
  | directory d => exact .inr fun k => rfl
  | catalog c => exact .inr fun k => rfl
  | evaluator e => exact .inr fun k => rfl
  | configure config => exact .inr fun k => rfl

end Session

end Delegation
