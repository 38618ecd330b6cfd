/-
# How a directory files its targets

A target is filed under its type and its identifier, or its name if it has none, and takes the place
of what was filed there before.  A lookup by name, and one of a type that exists once, searches all
entries without regard to this key; still, what it finds is always the entry that is filed under its
own key.

## Key constructions

* `Directory.Edit`, `Directory.edits` — changes of the entries, one after the other.
* `Directory.lastTarget?` — the target that some changes added last under a key.

## Key results

* `Directory.get?_targets_edits` — under each key, the target that was added last is filed.
* `Directory.get?_of_lookupTarget` — what a lookup finds is filed under its own key.
* `Directory.eq_of_key_eq` — two targets that lookups find are one if they share their key.
-/
import Delegation.Proofs.Lookup

namespace Delegation.Directory

/-! ## Changes of the entries -/

/-- A change of the entries of a directory. -/
inductive Edit
  | addTarget (t : TargetEntry)
  | addGrantee (g : GranteeEntry)
  | removeGrantee (k : GranteeKey)

/-- The target that a change adds. -/
def Edit.target? : Edit → Option TargetEntry
  | .addTarget t => some t
  | _ => none

/-- The directory after a change. -/
def edit (d : Directory) : Edit → Directory
  | .addTarget t => d.addTarget t
  | .addGrantee g => d.addGrantee g
  | .removeGrantee k => d.removeGrantee k

/-- The directory after some changes. -/
def edits (d : Directory) (es : List Edit) : Directory := es.foldl edit d

/-- The target that some changes added last under a key. -/
def lastTarget? (es : List Edit) (k : TargetKey) : Option TargetEntry :=
  (es.filterMap Edit.target?).reverse.find? fun t => t.key = k

variable {d : Directory}

/-- Changes of grantees leave the targets alone. -/
theorem targets_edits (d : Directory) (es : List Edit) :
    (d.edits es).targets = (es.filterMap Edit.target?).foldl Keyed.insert d.targets := by
  unfold edits
  induction es generalizing d with
  | nil => rfl
  | cons e es ih =>
    rw [List.foldl_cons, ih]
    cases e <;> rfl

/-- Under each key, the target that was added last is filed, or else the one that was there
before. -/
theorem get?_targets_edits (d : Directory) (es : List Edit) (k : TargetKey) :
    (d.edits es).targets.get? k = (lastTarget? es k).or (d.targets.get? k) := by
  rw [targets_edits, Keyed.get?_foldl_insert]
  rfl

/-! ## What lookups find -/

theorem mem_of_target? {type : TargetType} {loc : Locator} {t : TargetEntry}
    (h : d.target? type loc = some t) : t ∈ d.targets.toList := by
  unfold target? at h
  split at h
  · split at h
    · exact (Keyed.get?_eq_some_iff.mp h).1
    · exact List.mem_of_find?_eq_some h
  · exact List.mem_of_find?_eq_some h

/-- However it is addressed, a target that a lookup finds is the one that is filed under its own
key. -/
theorem get?_of_lookupTarget {type : TargetType} {loc : Locator} {t : TargetEntry}
    (h : d.lookupTarget type loc = .ok t) : d.targets.get? t.key = some t :=
  Keyed.get?_eq_some_iff.mpr ⟨mem_of_target? (lookupTarget_eq_ok_iff.mp h), rfl⟩

/-- Two targets that lookups find are one if they share their key. -/
theorem eq_of_key_eq {type type' : TargetType} {loc loc' : Locator} {s t : TargetEntry}
    (hs : d.lookupTarget type loc = .ok s) (ht : d.lookupTarget type' loc' = .ok t)
    (hkey : s.key = t.key) : s = t := by
  have hfiled := get?_of_lookupTarget hs
  rw [hkey, get?_of_lookupTarget ht] at hfiled
  exact (Option.some.inj hfiled).symm

end Delegation.Directory
