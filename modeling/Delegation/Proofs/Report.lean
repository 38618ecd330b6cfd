/-
# Reports, type by type

A report has one part for each target type, and a contribution reaches the part of its own type and
no other.  So whatever a run adds to a report, the part of a type is what the contributions to this
type alone leave behind, and the parts that a report starts with are the parts that it keeps.

## Key constructions

* `RightsReport.run` — one contribution after the other; those that are refused are passed over.
* `RightsReport.addressedTo` — the contributions to one type.

## Key results

* `TypeRights.add_eq_error_iff` — the one reason to refuse a contribution.
* `RightsReport.on_attempt`, `RightsReport.on_run` — what a contribution and a run do to a part.
* `RightsReport.Complete.run` — every type has its one part throughout a run.
* `RightsReport.target_types_do_not_interfere` — a report is made of independent parts.
-/
import Delegation.Aggregation.Report
import Delegation.Proofs.TypeRights

namespace Delegation

/-! ## One contribution to one type -/

namespace TypeRights

variable {t t' : TypeRights} {c : Contribution} {e : NotDomained}

/-- A contribution is refused iff it gives a right on a domain of a type without domains. -/
theorem add_eq_error_iff :
    t.add c = .error e ↔
      e = ⟨t.type⟩ ∧ t.domains = .none ∧
        ∃ name rights, c = .domain name rights ∧ rights.hasNoRight = false := by
  cases c with
  | all | entry | aggregation => simp [add]
  | domain name rights =>
    cases hr : rights.hasNoRight <;> cases hd : t.domains <;>
      simp [add, addDomain, hr, hd, @eq_comm _ e]

theorem type_add (h : t.add c = .ok t') : t'.type = t.type := by
  have hattempt : t.attempt c = t' := by
    unfold attempt
    rw [h]
  rw [← hattempt, attempt_eq]

end TypeRights

namespace RightsReport

open TypeRights

variable {r r' : RightsReport} {type type' : TargetType} {c : Contribution} {t : TypeRights}
  {e : NotDomained}

/-! ## One contribution to a report -/

/-- The part of a type is about this type. -/
@[simp] theorem type_on (r : RightsReport) (type : TargetType) : (r.on type).type = type := by
  unfold on
  cases h : r.types.get? type with
  | none => rfl
  | some t => exact (Keyed.get?_eq_some_iff.mp h).2

/-- A report starts without rights on any type. -/
theorem on_start (granteeType granteeId granteeName : String) (type : TargetType) :
    (start granteeType granteeId granteeName).on type = .none type := by
  cases type <;> rfl

theorem add_of_ok (h : (r.on type).add c = .ok t) :
    r.add type c = .ok { r with types := r.types.insert t } := by
  unfold add
  rw [h]
  rfl

theorem add_of_error (h : (r.on type).add c = .error e) : r.add type c = .error e := by
  unfold add
  rw [h]
  rfl

/-- A report refuses a contribution iff the part of its type does. -/
theorem add_eq_error_iff : r.add type c = .error e ↔ (r.on type).add c = .error e := by
  constructor
  · intro h
    cases ht : (r.on type).add c with
    | ok t =>
      rw [add_of_ok ht] at h
      cases h
    | error e' =>
      rw [add_of_error ht] at h
      exact congrArg Except.error (Except.error.inj h)
  · exact add_of_error

/-- A new part takes the place of the part of its type. -/
theorem on_insert (r : RightsReport) (t : TypeRights) (type' : TargetType) :
    on { r with types := r.types.insert t } type' = if t.type = type' then t else r.on type' := by
  unfold on
  rw [Keyed.get?_insert]
  split <;> rfl

theorem attempt_of_ok (h : (r.on type).add c = .ok t) :
    r.attempt (type, c) = { r with types := r.types.insert t } := by
  unfold attempt
  rw [add_of_ok h]

theorem attempt_of_error (h : (r.on type).add c = .error e) : r.attempt (type, c) = r := by
  unfold attempt
  rw [add_of_error h]

/-- A contribution changes the part of its own type only. -/
theorem on_attempt (r : RightsReport) (type : TargetType) (c : Contribution)
    (type' : TargetType) :
    (r.attempt (type, c)).on type' =
      if type = type' then (r.on type').attempt c else r.on type' := by
  cases h : (r.on type).add c with
  | ok t =>
    have htype : t.type = type := by rw [type_add h, type_on]
    rw [attempt_of_ok h, on_insert, htype]
    split
    next heq =>
      subst heq
      unfold TypeRights.attempt
      rw [h]
    next => rfl
  | error e =>
    rw [attempt_of_error h]
    split
    next heq =>
      subst heq
      unfold TypeRights.attempt
      rw [h]
    next => rfl

/-! ## Runs -/

/-- The report after some contributions. -/
def run (r : RightsReport) (ops : List (TargetType × Contribution)) : RightsReport :=
  ops.foldl attempt r

/-- The contributions to one type, in order. -/
def addressedTo (type : TargetType) (ops : List (TargetType × Contribution)) :
    List Contribution :=
  (ops.filter fun op => op.1 = type).map Prod.snd

/-- The part of a type after a run is what the contributions to this type leave behind. -/
theorem on_run (r : RightsReport) (ops : List (TargetType × Contribution)) (type : TargetType) :
    (r.run ops).on type = (r.on type).run (addressedTo type ops) := by
  induction ops generalizing r with
  | nil => rfl
  | cons op ops ih =>
    obtain ⟨type', c⟩ := op
    show ((r.attempt (type', c)).run ops).on type = _
    rw [ih, on_attempt]
    unfold addressedTo
    by_cases h : type' = type
    · rw [if_pos h, List.filter_cons_of_pos (by simpa using h)]
      rfl
    · rw [if_neg h, List.filter_cons_of_neg (by simpa using h)]

/-! ## The parts of a report -/

/-- The report has one part for each type, in reporting order. -/
def Complete (r : RightsReport) : Prop := r.types.keys = TargetType.all

namespace Complete

theorem start (granteeType granteeId granteeName : String) :
    Complete (.start granteeType granteeId granteeName) := rfl

/-- A part in the place of another one opens no place. -/
theorem insert (h : r.Complete) (t : TypeRights) :
    Complete { r with types := r.types.insert t } := by
  refine Eq.trans (Keyed.ext_keys fun type => ?_) h
  rw [Keyed.mem_keys_insert, or_iff_right_of_imp]
  rintro rfl
  rw [h]
  exact TargetType.mem_all _

theorem attempt (h : r.Complete) (op : TargetType × Contribution) : (r.attempt op).Complete := by
  obtain ⟨type, c⟩ := op
  cases ht : (r.on type).add c with
  | ok t =>
    rw [attempt_of_ok ht]
    exact h.insert t
  | error e =>
    rw [attempt_of_error ht]
    exact h

theorem run (h : r.Complete) (ops : List (TargetType × Contribution)) : (r.run ops).Complete := by
  induction ops generalizing r with
  | nil => exact h
  | cons op ops ih => exact ih (h.attempt op)

/-- Looking up the part of a type never misses. -/
theorem get?_eq (h : r.Complete) (type : TargetType) : r.types.get? type = some (r.on type) := by
  have hmem : type ∈ r.types.keys := by
    rw [h]
    exact type.mem_all
  obtain ⟨t, ht⟩ := Option.isSome_iff_exists.mp (Keyed.contains_iff.mpr hmem)
  unfold on
  rw [ht]
  rfl

/-- Opening the place of a type changes nothing. -/
theorem insert_on (h : r.Complete) (type : TargetType) :
    r.types.insert (r.on type) = r.types := by
  refine Keyed.ext_get? fun type' => ?_
  rw [Keyed.get?_insert, type_on]
  split
  next heq => rw [← heq, h.get?_eq]
  next => rfl

end Complete

/-- **Target types do not interfere.**  Whatever is contributed to a report, refused or not: the
part of a type is what the contributions to this type alone leave behind, in their order.  A
contribution is refused iff it gives a right on a domain of a type without domains, and what is
refused leaves the whole report as it was.  Every type has exactly one part, in reporting order, so
looking up a part never misses, and opening the place of a type changes nothing. -/
theorem target_types_do_not_interfere (granteeType granteeId granteeName : String)
    (ops : List (TargetType × Contribution)) :
    let now := (start granteeType granteeId granteeName).run ops
    (∀ type, now.on type = (TypeRights.none type).run (addressedTo type ops)) ∧
      (∀ type c e, now.add type c = .error e ↔ e = ⟨type⟩ ∧ type.isDomained = false ∧
        ∃ name rights, c = .domain name rights ∧ rights.hasNoRight = false) ∧
      (∀ type c e, now.add type c = .error e → now.attempt (type, c) = now) ∧
      now.types.toList.map TypeRights.type = TargetType.all ∧
      (∀ type, now.types.get? type = some (now.on type)) ∧
      ∀ type, now.types.insert (now.on type) = now.types := by
  intro now
  have hcomplete : now.Complete := (Complete.start _ _ _).run ops
  have hpart (type : TargetType) :
      now.on type = (TypeRights.none type).run (addressedTo type ops) := by
    have hstart : (start granteeType granteeId granteeName).on type = .none type :=
      on_start granteeType granteeId granteeName type
    rw [on_run, hstart]
  refine ⟨hpart, fun type c e => ?_, fun type c e h => ?_, hcomplete, hcomplete.get?_eq,
    hcomplete.insert_on⟩
  · have hdomains : (now.on type).domains = .none ↔ type.isDomained = false := by
      rw [hpart, domains_run_none]
      cases type.isDomained <;> simp
    rw [add_eq_error_iff, TypeRights.add_eq_error_iff, type_on, hdomains]
  · exact attempt_of_error (add_eq_error_iff.mp h)

end RightsReport

end Delegation
