/-
# What lookups find

A lookup in the directory finds an entry of the type that was asked for.  Its only failure is
that there is no such entry, and for a grantee this failure always counts as a grantee that is
gone.

## Key constructions

* `Directory.target?`, `Directory.grantee?` — the entry that a locator points to.

## Key results

* `Directory.lookupTarget_eq_ok_iff`, `Directory.lookupGrantee_eq` — lookups say what they point to.
* `Directory.type_of_lookupTarget`, `Directory.type_of_lookupGrantee` — the type of what is found.
* `Catalog.right_eq_ok_iff` — the right that a catalog has under a name.
-/
import Delegation.Catalog
import Delegation.Directory

namespace Delegation

namespace Directory

variable {d : Directory}

/-! ## Targets -/

/-- The target to which a locator points among the targets of a type. -/
def target? (d : Directory) (type : TargetType) (loc : Locator) : Option TargetEntry :=
  if type.hasId then
    match loc.mode with
    | .byId => d.targets.get? ⟨type, loc.key⟩
    | .byName => d.targets.toList.find? fun t => t.type = type ∧ t.name = loc.key
  else d.targets.toList.find? fun t => t.type = type

/-- A lookup finds the target to which its locator points; it fails only if there is none. -/
theorem lookupTarget_eq (d : Directory) (type : TargetType) (loc : Locator) :
    d.lookupTarget type loc =
      match d.target? type loc with
      | some t => .ok t
      | none =>
        .error (if type.hasId then .notFound (missingTarget type) loc.key
          else .notFound .target type.code) := by
  unfold lookupTarget target?
  cases type.hasId with
  | true => rfl
  | false => rfl

theorem lookupTarget_eq_ok_iff {type : TargetType} {loc : Locator} {t : TargetEntry} :
    d.lookupTarget type loc = .ok t ↔ d.target? type loc = some t := by
  rw [lookupTarget_eq]
  cases d.target? type loc <;> simp

theorem type_of_target? {type : TargetType} {loc : Locator} {t : TargetEntry}
    (h : d.target? type loc = some t) : t.type = type := by
  unfold target? at h
  split at h
  · split at h
    · obtain ⟨-, hk⟩ := Keyed.get?_eq_some_iff.mp h
      exact congrArg TargetKey.type hk
    · have hp := List.find?_some h
      simp only [decide_eq_true_eq] at hp
      exact hp.1
  · simpa using List.find?_some h

/-- A target that was found is of the type that was asked for. -/
theorem type_of_lookupTarget {type : TargetType} {loc : Locator} {t : TargetEntry}
    (h : d.lookupTarget type loc = .ok t) : t.type = type :=
  type_of_target? (lookupTarget_eq_ok_iff.mp h)

/-! ## Grantees -/

/-- The grantee to which a locator points among the grantees of a type. -/
def grantee? (d : Directory) (type : GranteeType) (loc : Locator) : Option GranteeEntry :=
  match builtIn? type with
  | some g => some g
  | none =>
    match loc.mode with
    | .byId => d.grantees.get? ⟨type, loc.key⟩
    | .byName => d.grantees.toList.find? fun g => g.type = type ∧ g.name = loc.key

/-- A lookup finds the grantee to which its locator points; it fails only if there is none. -/
theorem lookupGrantee_eq (d : Directory) (type : GranteeType) (loc : Locator) :
    d.lookupGrantee type loc =
      match d.grantee? type loc with
      | some g => .ok g
      | none => .error (.notFound (missingGrantee type) loc.key) := by
  unfold lookupGrantee grantee?
  cases builtIn? type <;> rfl

theorem lookupGrantee_eq_ok_iff {type : GranteeType} {loc : Locator} {g : GranteeEntry} :
    d.lookupGrantee type loc = .ok g ↔ d.grantee? type loc = some g := by
  rw [lookupGrantee_eq]
  cases d.grantee? type loc <;> simp

/-- What a failed lookup of a grantee says. -/
theorem eq_of_lookupGrantee_error {type : GranteeType} {loc : Locator} {e : ServiceError}
    (h : d.lookupGrantee type loc = .error e) : e = .notFound (missingGrantee type) loc.key := by
  rw [lookupGrantee_eq] at h
  cases hg : d.grantee? type loc with
  | none =>
    rw [hg] at h
    exact (Except.error.inj h).symm
  | some g =>
    rw [hg] at h
    cases h

/-- The lookup of a grantee that fails means that the grantee is gone. -/
@[simp] theorem isMissingGrantee_missingGrantee (type : GranteeType) :
    (missingGrantee type).isMissingGrantee = true := by
  cases type <;> rfl

/-- The grantees that stand for everybody have the type that they stand for. -/
theorem type_of_builtIn? {type : GranteeType} {g : GranteeEntry} (h : builtIn? type = some g) :
    g.type = type := by
  cases type <;> cases h <;> rfl

theorem type_of_grantee? {type : GranteeType} {loc : Locator} {g : GranteeEntry}
    (h : d.grantee? type loc = some g) : g.type = type := by
  unfold grantee? at h
  split at h
  next g' hb =>
    cases h
    exact type_of_builtIn? hb
  next =>
    split at h
    · obtain ⟨-, hk⟩ := Keyed.get?_eq_some_iff.mp h
      exact congrArg GranteeKey.type hk
    · have hp := List.find?_some h
      simp only [decide_eq_true_eq] at hp
      exact hp.1

/-- A grantee that was found is of the type that was asked for. -/
theorem type_of_lookupGrantee {type : GranteeType} {loc : Locator} {g : GranteeEntry}
    (h : d.lookupGrantee type loc = .ok g) : g.type = type :=
  type_of_grantee? (lookupGrantee_eq_ok_iff.mp h)

end Directory

/-! ## Rights -/

namespace Catalog

variable {c : Catalog}

/-- The right that a catalog has under a name is the one that bears the name. -/
theorem right_eq_ok_iff {name : String} {r : Right} :
    c.right name = .ok r ↔ c.get? name = some r := by
  unfold right
  cases c.get? name <;> simp

theorem name_of_right {name : String} {r : Right} (h : c.right name = .ok r) : r.name = name := by
  obtain ⟨-, hn⟩ := Keyed.get?_eq_some_iff.mp (right_eq_ok_iff.mp h)
  exact hn

end Catalog

end Delegation
