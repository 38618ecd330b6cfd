/-
# What is found after changes

The entries of a directory change: grantees are added, replaced and removed, and targets are added
and replaced.  A lookup finds an entry that stands, that is, one that was added and neither replaced
nor removed since.  If none that stands is what was asked for, it fails, and says which kind of
entry is missing.

## Key constructions

* `Directory.GranteeStands`, `Directory.TargetStands` — an entry is in force after changes.
* `Answers` — a search finds an entry of a kind, or says that there is none.

## Key results

* `Directory.mem_grantees_edits_iff`, `Directory.mem_targets_edits_iff` — the entries of a directory
  are those that stand.
* `Directory.lookupGrantee_edit`, `Directory.lookupTarget_edit` — a change under one key is not seen
  under another.
* `Directory.lookups_find_what_stands` — what all lookups find.
-/
import Delegation.Proofs.Filing
import Delegation.Proofs.Last

namespace Delegation

/-! ## Searches -/

section Searches

variable {α κ : Type} {p : α → Prop} {found : Option α}

/-- An element that satisfies `p` was found if there is one. -/
def Found (p : α → Prop) (found : Option α) : Prop :=
  (∀ a, found = some a → p a) ∧ (found = none → ∀ a, ¬ p a)

theorem Found.of_iff (h : ∀ a, found = some a ↔ p a) : Found p found := by
  refine ⟨fun a => (h a).mp, fun hnone a ha => ?_⟩
  rw [(h a).mpr ha] at hnone
  cases hnone

theorem Found.congr {q : α → Prop} (hf : Found p found) (h : ∀ a, p a ↔ q a) : Found q found := by
  obtain rfl : p = q := funext fun a => propext (h a)
  exact hf

theorem found_find? (l : List α) (p : α → Prop) [DecidablePred p] :
    Found (fun a => a ∈ l ∧ p a) (l.find? fun a => p a) := by
  constructor
  · intro a h
    exact ⟨List.mem_of_find?_eq_some h, by simpa using List.find?_some h⟩
  · rintro h a ⟨ha, hp⟩
    simpa [hp] using List.find?_eq_none.mp h a ha

/-- A search finds an entry that satisfies `p`, or fails with `missing`, and then there is none. -/
def Answers (p : α → Prop) (missing : ServiceError) : Except ServiceError α → Prop
  | .ok a => p a
  | .error e => e = missing ∧ ∀ a, ¬ p a

end Searches

namespace Directory

/-! ## Entries that stand -/

/-- The change adds or removes the grantee with the key. -/
def Edit.TouchesGrantee (k : GranteeKey) : Edit → Prop
  | .addGrantee g => g.key = k
  | .removeGrantee k' => k' = k
  | .addTarget _ => False

/-- The change adds the target with the key. -/
def Edit.TouchesTarget (k : TargetKey) : Edit → Prop
  | .addTarget t => t.key = k
  | _ => False

/-- The grantee was added, and neither replaced nor removed since. -/
def GranteeStands (es : List Edit) (g : GranteeEntry) : Prop :=
  IsLast (Edit.TouchesGrantee g.key) es (.addGrantee g)

/-- The target was added, and not replaced since. -/
def TargetStands (es : List Edit) (t : TargetEntry) : Prop :=
  IsLast (Edit.TouchesTarget t.key) es (.addTarget t)

variable {d : Directory} {e : Edit} {es : List Edit} {g : GranteeEntry} {t : TargetEntry}

/-- The grantee under a key is set by the changes that touch it. -/
theorem get?_grantees_edit_iff {k : GranteeKey} : (d.edit e).grantees.get? k = some g ↔
    e.TouchesGrantee k ∧ e = .addGrantee g ∨
      ¬ e.TouchesGrantee k ∧ d.grantees.get? k = some g := by
  cases e with
  | addTarget t => simp [edit, addTarget, Edit.TouchesGrantee]
  | addGrantee g' =>
    simp only [edit, addGrantee, Edit.TouchesGrantee, Keyed.get?_insert, Edit.addGrantee.injEq]
    by_cases hk : g'.key = k <;> simp [hk]
  | removeGrantee k' =>
    simp only [edit, removeGrantee, Edit.TouchesGrantee, Keyed.get?_erase]
    by_cases hk : k' = k <;> simp [hk]

/-- The target under a key is set by the changes that touch it. -/
theorem get?_targets_edit_iff {k : TargetKey} : (d.edit e).targets.get? k = some t ↔
    e.TouchesTarget k ∧ e = .addTarget t ∨ ¬ e.TouchesTarget k ∧ d.targets.get? k = some t := by
  cases e with
  | addTarget t' =>
    simp only [edit, addTarget, Edit.TouchesTarget, Keyed.get?_insert, Edit.addTarget.injEq]
    by_cases hk : t'.key = k <;> simp [hk]
  | addGrantee g => simp [edit, addGrantee, Edit.TouchesTarget]
  | removeGrantee k' => simp [edit, removeGrantee, Edit.TouchesTarget]

theorem get?_grantees_edits_iff {k : GranteeKey} : (d.edits es).grantees.get? k = some g ↔
    IsLast (Edit.TouchesGrantee k) es (.addGrantee g) ∨
      (∀ e ∈ es, ¬ e.TouchesGrantee k) ∧ d.grantees.get? k = some g :=
  view_foldl_iff edit (fun d => d.grantees.get? k) .addGrantee
    (fun _ _ _ => get?_grantees_edit_iff) d g

theorem get?_targets_edits_iff {k : TargetKey} : (d.edits es).targets.get? k = some t ↔
    IsLast (Edit.TouchesTarget k) es (.addTarget t) ∨
      (∀ e ∈ es, ¬ e.TouchesTarget k) ∧ d.targets.get? k = some t :=
  view_foldl_iff edit (fun d => d.targets.get? k) .addTarget
    (fun _ _ _ => get?_targets_edit_iff) d t

/-- The grantees of a directory are those that stand. -/
theorem mem_grantees_edits_iff : g ∈ (initial.edits es).grantees.toList ↔ GranteeStands es g := by
  have hnone : initial.grantees.get? g.key = none := rfl
  have hget : (initial.edits es).grantees.get? g.key = some g ↔ GranteeStands es g := by
    rw [get?_grantees_edits_iff, hnone]
    exact or_iff_left fun h => nomatch h.2
  rw [← hget, Keyed.get?_eq_some_iff, and_iff_left rfl]

/-- Of the types whose entries have identifiers, the targets of a directory are those that stand. -/
theorem mem_targets_edits_iff (hid : t.type.hasId = true) :
    t ∈ (initial.edits es).targets.toList ↔ TargetStands es t := by
  have hnone : initial.targets.get? t.key ≠ some t := by
    intro h
    obtain ⟨hmem, -⟩ := Keyed.get?_eq_some_iff.mp h
    -- There are only the two entries that always exist, and their types have no identifiers.
    rcases List.mem_cons.mp hmem with rfl | hmem
    · cases hid
    · rcases List.mem_cons.mp hmem with rfl | hmem
      · cases hid
      · cases hmem
  have hget : (initial.edits es).targets.get? t.key = some t ↔ TargetStands es t := by
    rw [get?_targets_edits_iff]
    exact or_iff_left fun h => hnone h.2
  rw [← hget, Keyed.get?_eq_some_iff, and_iff_left rfl]

/-! ## Lookups -/

theorem answers_lookupGrantee {p : GranteeEntry → Prop} {type : GranteeType} {loc : Locator}
    (h : Found p (d.grantee? type loc)) :
    Answers p (.notFound (missingGrantee type) loc.key) (d.lookupGrantee type loc) := by
  rw [lookupGrantee_eq]
  cases hfound : d.grantee? type loc with
  | none => exact ⟨rfl, h.2 hfound⟩
  | some g => exact h.1 g hfound

theorem answers_lookupTarget {p : TargetEntry → Prop} {type : TargetType} {loc : Locator}
    (htype : type.hasId = true) (h : Found p (d.target? type loc)) :
    Answers p (.notFound (missingTarget type) loc.key) (d.lookupTarget type loc) := by
  rw [lookupTarget_eq, if_pos htype]
  cases hfound : d.target? type loc with
  | none => exact ⟨rfl, h.2 hfound⟩
  | some t => exact h.1 t hfound

/-- By an identifier, the grantee is found that stands under it. -/
theorem grantee?_byId_iff {type : GranteeType} (htype : builtIn? type = none) {key : String} :
    (initial.edits es).grantee? type ⟨.byId, key⟩ = some g ↔
      GranteeStands es g ∧ g.key = ⟨type, key⟩ := by
  unfold grantee?
  rw [htype, ← mem_grantees_edits_iff]
  exact Keyed.get?_eq_some_iff

/-- By a name, a grantee is found that stands and bears this name, if there is one. -/
theorem found_grantee?_byName {type : GranteeType} (htype : builtIn? type = none) (key : String) :
    Found (fun g => GranteeStands es g ∧ g.type = type ∧ g.name = key)
      ((initial.edits es).grantee? type ⟨.byName, key⟩) := by
  simp only [← mem_grantees_edits_iff]
  unfold grantee?
  rw [htype]
  exact found_find? _ fun g : GranteeEntry => g.type = type ∧ g.name = key

theorem mem_targets_edits_and_iff {type : TargetType} (htype : type.hasId = true) {q : Prop}
    (hq : q → t.type = type) :
    t ∈ (initial.edits es).targets.toList ∧ q ↔ TargetStands es t ∧ q :=
  and_congr_left fun h => mem_targets_edits_iff ((hq h).symm ▸ htype)

/-- By an identifier, the target is found that stands under this key. -/
theorem target?_byId_iff {type : TargetType} (htype : type.hasId = true) {key : String} :
    (initial.edits es).target? type ⟨.byId, key⟩ = some t ↔
      TargetStands es t ∧ t.key = ⟨type, key⟩ := by
  unfold target?
  rw [if_pos htype, ← mem_targets_edits_and_iff htype (congrArg TargetKey.type)]
  exact Keyed.get?_eq_some_iff

/-- By a name, a target is found that stands and bears this name, if there is one. -/
theorem found_target?_byName {type : TargetType} (htype : type.hasId = true) (key : String) :
    Found (fun t => TargetStands es t ∧ t.type = type ∧ t.name = key)
      ((initial.edits es).target? type ⟨.byName, key⟩) := by
  unfold target?
  rw [if_pos htype]
  exact (found_find? _ fun t : TargetEntry => t.type = type ∧ t.name = key).congr fun _ =>
    mem_targets_edits_and_iff htype And.left

/-! ## Changes under other keys -/

/-- A change under one key is not seen by the lookup of a grantee under another. -/
theorem lookupGrantee_edit {type : GranteeType} {key : String}
    (h : ¬ e.TouchesGrantee ⟨type, key⟩) :
    (d.edit e).lookupGrantee type ⟨.byId, key⟩ = d.lookupGrantee type ⟨.byId, key⟩ := by
  have hget : (d.edit e).grantees.get? ⟨type, key⟩ = d.grantees.get? ⟨type, key⟩ := by
    refine Option.ext fun g => ?_
    rw [get?_grantees_edit_iff, and_iff_right h]
    exact or_iff_right fun hset => h hset.1
  unfold lookupGrantee
  dsimp only
  rw [hget]

/-- A change under one key is not seen by the lookup of a target under another. -/
theorem lookupTarget_edit {type : TargetType} (htype : type.hasId = true) {key : String}
    (h : ¬ e.TouchesTarget ⟨type, key⟩) :
    (d.edit e).lookupTarget type ⟨.byId, key⟩ = d.lookupTarget type ⟨.byId, key⟩ := by
  have hget : (d.edit e).targets.get? ⟨type, key⟩ = d.targets.get? ⟨type, key⟩ := by
    refine Option.ext fun t => ?_
    rw [get?_targets_edit_iff, and_iff_right h]
    exact or_iff_right fun hset => h hset.1
  unfold lookupTarget
  rw [if_pos htype, if_pos htype]
  dsimp only
  rw [hget]

/-! ## All lookups -/

/-- **Lookups find what stands.**  After any changes, the lookup of an account, a group or a domain
by its identifier finds exactly the grantee that was added last under this key and not removed
since, and the lookup by name finds one that stands and bears the name.  If there is none, the
lookup fails and says that an account, a group or a domain is missing, which counts as a grantee
that is gone.  The two that stand for everybody are always found.  The lookup of a target whose type
has identifiers finds exactly the target that was added last under the key, or one that stands and
bears the name, and fails if there is none.  Whatever is found has the type that was asked for.  A
change under one key is not seen by a lookup by identifier under another. -/
theorem lookups_find_what_stands (es : List Edit) :
    let d := initial.edits es
    (∀ type missing, (type, missing) ∈
        [(GranteeType.user, MissingKind.account), (.group, .group), (.domain, .domain)] →
      missing.isMissingGrantee = true ∧ ∀ key,
        (∀ g, d.lookupGrantee type ⟨.byId, key⟩ = .ok g ↔
          GranteeStands es g ∧ g.key = ⟨type, key⟩) ∧
        Answers (fun g => GranteeStands es g ∧ g.key = ⟨type, key⟩) (.notFound missing key)
          (d.lookupGrantee type ⟨.byId, key⟩) ∧
        Answers (fun g => GranteeStands es g ∧ g.type = type ∧ g.name = key)
          (.notFound missing key) (d.lookupGrantee type ⟨.byName, key⟩)) ∧
    (∀ loc,
      d.lookupGrantee .authenticated loc = .ok (.plain .authenticated
        "00000000-0000-0000-0000-000000000000" "all authenticated users") ∧
      d.lookupGrantee .everyone loc = .ok (.plain .everyone
        "99999999-9999-9999-9999-999999999999" "public")) ∧
    (∀ type key, type ≠ .config → type ≠ .globalAcl →
      (∀ t, d.lookupTarget type ⟨.byId, key⟩ = .ok t ↔ TargetStands es t ∧ t.key = ⟨type, key⟩) ∧
      Answers (fun t => TargetStands es t ∧ t.key = ⟨type, key⟩)
        (.notFound (missingTarget type) key) (d.lookupTarget type ⟨.byId, key⟩) ∧
      Answers (fun t => TargetStands es t ∧ t.type = type ∧ t.name = key)
        (.notFound (missingTarget type) key) (d.lookupTarget type ⟨.byName, key⟩)) ∧
    (∀ type loc g, d.lookupGrantee type loc = .ok g → g.type = type) ∧
    (∀ type loc t, d.lookupTarget type loc = .ok t → t.type = type) ∧
    ∀ e : Edit,
      (∀ type key, ¬ e.TouchesGrantee ⟨type, key⟩ →
        (d.edit e).lookupGrantee type ⟨.byId, key⟩ = d.lookupGrantee type ⟨.byId, key⟩) ∧
      ∀ type key, type ≠ .config → type ≠ .globalAcl → ¬ e.TouchesTarget ⟨type, key⟩ →
        (d.edit e).lookupTarget type ⟨.byId, key⟩ = d.lookupTarget type ⟨.byId, key⟩ := by
  intro d
  refine ⟨fun type missing hpair => ?_, fun loc => ⟨rfl, rfl⟩, fun type key hconfig hglobal => ?_,
    fun _ _ _ => type_of_lookupGrantee, fun _ _ _ => type_of_lookupTarget, fun e =>
    ⟨fun _ _ => lookupGrantee_edit, fun _ _ hconfig hglobal =>
      lookupTarget_edit (TargetType.hasId_of_ne hconfig hglobal)⟩⟩
  · obtain ⟨htype, rfl⟩ : builtIn? type = none ∧ missingGrantee type = missing := by
      simp only [List.mem_cons, Prod.mk.injEq, List.not_mem_nil, or_false] at hpair
      rcases hpair with ⟨rfl, rfl⟩ | ⟨rfl, rfl⟩ | ⟨rfl, rfl⟩ <;> exact ⟨rfl, rfl⟩
    refine ⟨isMissingGrantee_missingGrantee type, fun key => ⟨fun g => ?_, ?_, ?_⟩⟩
    · rw [lookupGrantee_eq_ok_iff, grantee?_byId_iff htype]
    · exact answers_lookupGrantee (.of_iff fun _ => grantee?_byId_iff htype)
    · exact answers_lookupGrantee (found_grantee?_byName htype key)
  · have htype := TargetType.hasId_of_ne hconfig hglobal
    refine ⟨fun t => ?_, ?_, ?_⟩
    · rw [lookupTarget_eq_ok_iff, target?_byId_iff htype]
    · exact answers_lookupTarget htype (.of_iff fun _ => target?_byId_iff htype)
    · exact answers_lookupTarget htype (found_target?_byName htype key)

/-- A group is found as it was added last, also after an account with its identifier is removed, and
so is a domain with this identifier. -/
theorem replaced_group_is_found_as_added_last :
    let group : GranteeEntry := ⟨.group, "g", "new", .group⟩
    let domain : TargetEntry := .plain .domain (some "g") "example.com"
    let d := initial.edits [.addGrantee (.plain .group "g" "old"), .addGrantee group,
      .addGrantee (.plain .user "g" "ada"), .addTarget domain]
    d.lookupGrantee .group ⟨.byId, "g"⟩ = .ok group ∧
      (d.edit (.removeGrantee ⟨.user, "g"⟩)).lookupGrantee .group ⟨.byId, "g"⟩ = .ok group ∧
      d.lookupTarget .domain ⟨.byId, "g"⟩ = .ok domain := by
  intro group domain d
  obtain ⟨hgrantees, -, htargets, -, -, hframe⟩ := lookups_find_what_stands
    [.addGrantee (.plain .group "g" "old"), .addGrantee group,
      .addGrantee (.plain .user "g" "ada"), .addTarget domain]
  have hgroup : d.lookupGrantee .group ⟨.byId, "g"⟩ = .ok group := by
    refine (((hgrantees .group .group (by decide)).2 "g").1 group).mpr ⟨?_, rfl⟩
    exact ⟨rfl, [_], [_, _], rfl, by simp [Edit.TouchesGrantee, group, GranteeEntry.key,
      GranteeEntry.plain]⟩
  refine ⟨hgroup, ?_, ?_⟩
  · exact ((hframe _).1 .group "g" (by simp [Edit.TouchesGrantee])).trans hgroup
  · refine ((htargets .domain "g" (by decide) (by decide)).1 domain).mpr ⟨?_, rfl⟩
    exact ⟨rfl, [_, _, _], [], rfl, by simp⟩

end Directory

end Delegation
