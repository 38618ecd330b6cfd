/-
# Running requests

A request is a computation on a world that may be refused.  This module says how the pieces of
which requests are made run, what a request that was answered went through, and when a request
leaves a part of the world as it was.

## Key constructions

* `Request.Keeps` — whatever its result, the request leaves a part of the world alone.
* `Request.RefusedOnly` — the request is refused for certain reasons only.
* `Request.refusal` — the reason for which the request is refused, if it is.

## Key results

* `Request.run_bind_of_ok`, `Request.run_bind_of_error` — the second piece starts in the world that
  the first one left behind, unless the first one was refused.
* `Request.bind_eq_ok_iff` — two pieces in a row are answered iff both of them are.
* `Request.Keeps.bind` — a part of the world that both pieces keep is kept by both in a row.
* `Request.RefusedOnly.bind` — two pieces in a row are refused for the reasons of either of them.
* `Request.refusal_bind` — two pieces in a row are refused for the reason of the first one, or else
  for that of the second one.
-/
import Delegation.Engine.Basic

namespace Delegation

namespace Request

variable {D C E S α β : Type} {w : World D C E S}

/-! ## Pieces of a request -/

@[simp] theorem run_pure (a : α) (w : World D C E S) :
    (pure a : Request D C E S α).run w = (.ok a, w) := rfl

@[simp] theorem run_throw (e : RequestError) (w : World D C E S) :
    (throw e : Request D C E S α).run w = (.error e, w) := rfl

@[simp] theorem run_tryDirectory (op : Operation D α) (w : World D C E S) :
    (tryDirectory op : Request D C E S _).run w =
      (.ok (op.run w.directory).1, { w with directory := (op.run w.directory).2 }) := rfl

@[simp] theorem run_directory (op : Operation D α) (w : World D C E S) :
    (directory op : Request D C E S α).run w =
      (orRefuse (op.run w.directory).1, { w with directory := (op.run w.directory).2 }) := rfl

@[simp] theorem run_catalog (op : Operation C α) (w : World D C E S) :
    (catalog op : Request D C E S α).run w =
      (orRefuse (op.run w.catalog).1, { w with catalog := (op.run w.catalog).2 }) := rfl

@[simp] theorem run_evaluator (op : Operation E α) (w : World D C E S) :
    (evaluator op : Request D C E S α).run w =
      (orRefuse (op.run w.evaluator).1, { w with evaluator := (op.run w.evaluator).2 }) := rfl

@[simp] theorem run_store (op : Operation S α) (w : World D C E S) :
    (store op : Request D C E S α).run w =
      (orRefuse (op.run w.store).1, { w with store := (op.run w.store).2 }) := rfl

@[simp] theorem run_note (events : List Event) (w : World D C E S) :
    (note events : Request D C E S Unit).run w = (.ok (), { w with log := w.log ++ events }) := rfl

@[simp] theorem run_check_ok (a : α) (w : World D C E S) :
    (check (.ok a) : Request D C E S α).run w = (.ok a, w) := rfl

@[simp] theorem run_check_error (e : InvalidRequest) (w : World D C E S) :
    (check (.error e) : Request D C E S α).run w = (.error (.invalid e), w) := rfl

@[simp] theorem orRefuse_ok (a : α) : orRefuse (.ok a) = .ok a := rfl

@[simp] theorem orRefuse_error (e : ServiceError) :
    orRefuse (.error e : Except ServiceError α) = .error (.ofService e) := rfl

/-! ## Two pieces in a row -/

/-- A refusal of the first piece is the refusal of both in a row. -/
theorem run_bind (m : Request D C E S α) (f : α → Request D C E S β) (w : World D C E S) :
    (m >>= f).run w = match (m.run w).1 with
      | .ok a => (f a).run (m.run w).2
      | .error e => (.error e, (m.run w).2) := by
  show ExceptT.bindCont f (m w).1 (m w).2 = match (m w).1 with
    | .ok a => (f a).run (m w).2
    | .error e => (.error e, (m w).2)
  cases (m w).1 <;> rfl

theorem run_bind_of_ok {m : Request D C E S α} {f : α → Request D C E S β} {a : α}
    (h : (m.run w).1 = .ok a) : (m >>= f).run w = (f a).run (m.run w).2 := by
  rw [run_bind, h]

theorem run_bind_of_error {m : Request D C E S α} {f : α → Request D C E S β} {e : RequestError}
    (h : (m.run w).1 = .error e) : (m >>= f).run w = (.error e, (m.run w).2) := by
  rw [run_bind, h]

/-- Two pieces in a row are answered iff the first one is answered, and the second one is
answered in the world that the first one left behind. -/
theorem bind_eq_ok_iff {m : Request D C E S α} {f : α → Request D C E S β} {b : β} :
    ((m >>= f).run w).1 = .ok b ↔
      ∃ a, (m.run w).1 = .ok a ∧ ((f a).run (m.run w).2).1 = .ok b := by
  cases h : (m.run w).1 with
  | ok a =>
    rw [run_bind_of_ok h]
    simp
  | error e =>
    rw [run_bind_of_error h]
    simp

/-- Nothing happens after the piece before an answer. -/
theorem world_bind_pure (m : Request D C E S α) (f : α → β) (w : World D C E S) :
    ((m >>= fun a => pure (f a)).run w).2 = (m.run w).2 := by
  cases h : (m.run w).1 with
  | ok a =>
    rw [run_bind_of_ok h]
    rfl
  | error e => rw [run_bind_of_error h]

/-! ## Answers -/

theorem orRefuse_eq_ok_iff {result : Except ServiceError α} {a : α} :
    orRefuse result = .ok a ↔ result = .ok a := by
  cases result <;> simp

/-- What is refused is refused for the failure of the service. -/
theorem orRefuse_eq_error_iff {result : Except ServiceError α} {e : RequestError} :
    orRefuse result = .error e ↔ ∃ cause, result = .error cause ∧ .ofService cause = e := by
  cases result <;> simp

theorem check_eq_ok_iff {result : Except InvalidRequest α} {a : α} :
    ((check result : Request D C E S α).run w).1 = .ok a ↔ result = .ok a := by
  cases result <;> simp

/-- A check looks at nothing and changes nothing. -/
@[simp] theorem world_check (result : Except InvalidRequest α) (w : World D C E S) :
    ((check result : Request D C E S α).run w).2 = w := by
  cases result <;> rfl

/-! ## Parts of the world that a request keeps -/

/-- Whatever its result, the request leaves a part of the world as it was. -/
def Keeps {γ : Type} (part : World D C E S → γ) (m : Request D C E S α) : Prop :=
  ∀ w, part (m.run w).2 = part w

namespace Keeps

variable {γ : Type} {part : World D C E S → γ}

theorem pure (a : α) : Keeps part (Pure.pure a : Request D C E S α) := fun _ => rfl

theorem throw (e : RequestError) : Keeps part (MonadExcept.throw e : Request D C E S α) :=
  fun _ => rfl

theorem check (result : Except InvalidRequest α) :
    Keeps part (Request.check result : Request D C E S α) := by
  intro w
  rw [world_check]

/-! A call of a service keeps a part that does not depend on the state of the service. -/

theorem tryDirectory (hd : ∀ w d, part { w with directory := d } = part w) (op : Operation D α) :
    Keeps part (Request.tryDirectory op) := fun w => hd w _

theorem directory (hd : ∀ w d, part { w with directory := d } = part w) (op : Operation D α) :
    Keeps part (Request.directory op) := fun w => hd w _

theorem catalog (hc : ∀ w c, part { w with catalog := c } = part w) (op : Operation C α) :
    Keeps part (Request.catalog op) := fun w => hc w _

theorem evaluator (he : ∀ w e, part { w with evaluator := e } = part w) (op : Operation E α) :
    Keeps part (Request.evaluator op) := fun w => he w _

theorem store (hs : ∀ w s, part { w with store := s } = part w) (op : Operation S α) :
    Keeps part (Request.store op) := fun w => hs w _

theorem note (hl : ∀ w log, part { w with log := log } = part w) (events : List Event) :
    Keeps part (Request.note events : Request D C E S Unit) := fun w => hl w _

/-- What both pieces keep is kept by both in a row, also when the first one is refused. -/
theorem bind {m : Request D C E S α} {f : α → Request D C E S β} (hm : Keeps part m)
    (hf : ∀ a, Keeps part (f a)) : Keeps part (m >>= f) := by
  intro w
  cases h : (m.run w).1 with
  | ok a => rw [run_bind_of_ok h, hf a, hm w]
  | error e => rw [run_bind_of_error h, hm w]

end Keeps

/-! ## Why a request is refused -/

/-- Whenever the request is refused, then for a reason that satisfies `P`. -/
def RefusedOnly (P : RequestError → Prop) (m : Request D C E S α) : Prop :=
  ∀ w e, (m.run w).1 = .error e → P e

namespace RefusedOnly

variable {P : RequestError → Prop}

theorem pure (a : α) : RefusedOnly P (Pure.pure a : Request D C E S α) := by
  intro w e h
  cases h

theorem throw {e : RequestError} (he : P e) :
    RefusedOnly P (MonadExcept.throw e : Request D C E S α) := by
  intro w e' h
  cases h
  exact he

theorem check (hP : ∀ reason, P (.invalid reason)) (result : Except InvalidRequest α) :
    RefusedOnly P (Request.check result : Request D C E S α) := by
  intro w e h
  cases result with
  | ok a => cases h
  | error reason =>
    cases h
    exact hP reason

theorem note (events : List Event) :
    RefusedOnly P (Request.note events : Request D C E S Unit) := by
  intro w e h
  cases h

theorem tryDirectory (op : Operation D α) :
    RefusedOnly P (Request.tryDirectory op : Request D C E S _) := by
  intro w e h
  cases h

/-! A service is refused only for reasons that stand behind failures of services. -/

theorem orRefuse (hP : ∀ cause, P (.ofService cause)) {result : Except ServiceError α}
    {e : RequestError} (h : Request.orRefuse result = .error e) : P e := by
  cases result with
  | ok a => cases h
  | error cause =>
    cases h
    exact hP cause

theorem directory (hP : ∀ cause, P (.ofService cause)) (op : Operation D α) :
    RefusedOnly P (Request.directory op : Request D C E S α) := fun _ _ h => orRefuse hP h

theorem catalog (hP : ∀ cause, P (.ofService cause)) (op : Operation C α) :
    RefusedOnly P (Request.catalog op : Request D C E S α) := fun _ _ h => orRefuse hP h

theorem evaluator (hP : ∀ cause, P (.ofService cause)) (op : Operation E α) :
    RefusedOnly P (Request.evaluator op : Request D C E S α) := fun _ _ h => orRefuse hP h

/-- Two pieces in a row are refused for the reasons of either of them. -/
theorem bind {m : Request D C E S α} {f : α → Request D C E S β} (hm : RefusedOnly P m)
    (hf : ∀ a, RefusedOnly P (f a)) : RefusedOnly P (m >>= f) := by
  intro w e h
  cases hr : (m.run w).1 with
  | ok a =>
    rw [run_bind_of_ok hr] at h
    exact hf a _ e h
  | error e' =>
    rw [run_bind_of_error hr] at h
    cases h
    exact hm w e hr

end RefusedOnly

/-! ## Which reason -/

/-- The refusal behind the failure of a service. -/
def refusalOf : Except ServiceError α → Option RequestError
  | .ok _ => none
  | .error cause => some (.ofService cause)

/-- The refusal of an invalid request. -/
def invalidOf : Except InvalidRequest α → Option RequestError
  | .ok _ => none
  | .error reason => some (.invalid reason)

/-- The reason for which the request is refused in a world, if it is refused there. -/
def refusal (m : Request D C E S α) (w : World D C E S) : Option RequestError :=
  match (m.run w).1 with
  | .ok _ => none
  | .error e => some e

section Refusal

variable {m : Request D C E S α} {f : α → Request D C E S β} {a : α} {e : RequestError}
  {r r' : Option RequestError}

theorem refusal_of_ok (h : (m.run w).1 = .ok a) : refusal m w = none := by
  unfold refusal
  rw [h]

theorem refusal_of_error (h : (m.run w).1 = .error e) : refusal m w = some e := by
  unfold refusal
  rw [h]

theorem refusal_eq_some_iff : refusal m w = some e ↔ (m.run w).1 = .error e := by
  unfold refusal
  cases (m.run w).1 <;> simp

theorem refusal_eq_none_iff : refusal m w = none ↔ ∃ a, (m.run w).1 = .ok a := by
  unfold refusal
  cases (m.run w).1 <;> simp

/-- A service is refused for its failure. -/
theorem refusal_of_orRefuse {result : Except ServiceError α}
    (h : (m.run w).1 = orRefuse result) : refusal m w = refusalOf result := by
  unfold refusal refusalOf
  rw [h]
  cases result <;> rfl

/-- The failure of a service makes no request invalid. -/
theorem ofService_ne_invalid (cause : ServiceError) (reason : InvalidRequest) :
    RequestError.ofService cause ≠ .invalid reason := by
  cases cause <;> exact nofun

theorem refusalOf_ne_invalid {result : Except ServiceError α} {reason : InvalidRequest} :
    refusalOf result ≠ some (.invalid reason) := by
  cases result with
  | ok => exact nofun
  | error cause => exact fun h => ofService_ne_invalid cause reason (Option.some.inj h)

@[simp] theorem invalidOf_pure (a : α) : invalidOf (pure a : Except InvalidRequest α) = none := rfl

@[simp] theorem invalidOf_ok (a : α) : invalidOf (.ok a : Except InvalidRequest α) = none := rfl

@[simp] theorem invalidOf_error (reason : InvalidRequest) :
    invalidOf (.error reason : Except InvalidRequest α) = some (.invalid reason) := rfl

theorem invalidOf_bind (result : Except InvalidRequest α) (next : Except InvalidRequest β) :
    invalidOf (result >>= fun _ => next) = (invalidOf result).or (invalidOf next) := by
  cases result <;> rfl

theorem refusal_check (result : Except InvalidRequest α) :
    refusal (check result : Request D C E S α) w = invalidOf result := by
  cases result <;> rfl

/-- Two pieces in a row are refused for the reason of the first one, or else for that of the second
one in the world that the first one left behind. -/
theorem refusal_bind (hm : refusal m w = r)
    (hf : ∀ a, (m.run w).1 = .ok a → refusal (f a) (m.run w).2 = r') :
    refusal (m >>= f) w = r.or r' := by
  cases h : (m.run w).1 with
  | ok a =>
    rw [refusal_of_ok h] at hm
    rw [← hm, Option.none_or, ← hf a h]
    unfold refusal
    rw [run_bind_of_ok h]
  | error e =>
    rw [refusal_of_error h] at hm
    rw [← hm, Option.some_or]
    exact refusal_of_error (congrArg Prod.fst (run_bind_of_error h))

end Refusal

end Request

end Delegation
