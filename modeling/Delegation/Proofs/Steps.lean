/-
# What steps leave in a snapshot

A snapshot is built from steps, and a step only ever adds.  What is written about one side, setting
attributes or getting them, holds of the other one as well, so both are described at once.

## Key constructions

* `Side` — setting attributes, or getting them.
* `Snapshot.side`, `Snapshot.withSide` — the rights over attributes on a side.
* `Side.everyStep`, `Side.listStep` — the steps that add to a side.
* `Side.Lists` — steps list an attribute of a name on a side.
* `Snapshot.BuiltBy` — the snapshot of whatever target and grantee that steps fill.

## Key results

* `Snapshot.build_presets`, `Snapshot.build_side` — steps of one kind fill one part of a snapshot.
* `Snapshot.build_start` — from nothing, steps for each kind of right fill every part.
* `Snapshot.BuiltBy.mem_presets` — the preset rights are those that steps give.
* `Snapshot.BuiltBy.every_side` — a side covers every attribute iff a step says so.
* `Snapshot.BuiltBy.mem_keys_side` — the attributes listed on a side are those that steps list.
-/
import Delegation.Snapshot

namespace Delegation

/-- The two things that can be done with attributes. -/
inductive Side
  | set
  | get
deriving DecidableEq

namespace Side

/-- The value for a side, of two values for setting attributes and for getting them. -/
def choose {α : Type} (forSet forGet : α) : Side → α
  | set => forSet
  | get => forGet

/-- The step that covers every attribute on a side. -/
def everyStep : Side → SnapshotStep
  | set => .setEvery
  | get => .getEvery

/-- The step that lists an attribute on a side. -/
def listStep : Side → EffectiveAttr → SnapshotStep
  | set => .set
  | get => .get

/-- Some step lists an attribute of the name on the side. -/
def Lists (d : Side) (steps : List SnapshotStep) (name : String) : Prop :=
  ∃ attr, d.listStep attr ∈ steps ∧ attr.name = name

end Side

namespace Snapshot

/-- The rights over attributes on a side. -/
def side (s : Snapshot) : Side → AttrRights
  | .set => s.setAttrs
  | .get => s.getAttrs

variable {s : Snapshot} {st : SnapshotStep} {steps : List SnapshotStep} {d : Side} {name : String}

/-! ## One step -/

theorem mem_presets_apply :
    name ∈ (s.apply st).presets.toList ↔ name ∈ s.presets.toList ∨ .preset name = st := by
  cases st with
  | preset right =>
    show name ∈ (s.presets.insert right).toList ↔ _
    rw [NameSet.mem_insert, or_comm, SnapshotStep.preset.injEq]
  | _ => simp [apply]

theorem every_side_apply :
    ((s.apply st).side d).every = true ↔ (s.side d).every = true ∨ d.everyStep = st := by
  cases st <;> cases d <;>
    simp [apply, side, Side.everyStep, AttrRights.coverEvery, AttrRights.list]

theorem mem_keys_side_apply :
    name ∈ ((s.apply st).side d).listed.keys ↔
      name ∈ (s.side d).listed.keys ∨ ∃ attr, d.listStep attr = st ∧ attr.name = name := by
  cases st <;> cases d <;>
    simp [apply, side, Side.listStep, AttrRights.coverEvery, AttrRights.list,
      Keyed.mem_keys_insert, or_comm, eq_comm]

/-! ## All steps -/

theorem build_cons : s.build (st :: steps) = (s.apply st).build steps := rfl

theorem mem_presets_build :
    name ∈ (s.build steps).presets.toList ↔ name ∈ s.presets.toList ∨ .preset name ∈ steps := by
  induction steps generalizing s with
  | nil => simp [build]
  | cons st steps ih => rw [build_cons, ih, mem_presets_apply, List.mem_cons, or_assoc]

theorem every_side_build :
    ((s.build steps).side d).every = true ↔ (s.side d).every = true ∨ d.everyStep ∈ steps := by
  induction steps generalizing s with
  | nil => simp [build]
  | cons st steps ih => rw [build_cons, ih, every_side_apply, List.mem_cons, or_assoc]

theorem mem_keys_side_build :
    name ∈ ((s.build steps).side d).listed.keys ↔
      name ∈ (s.side d).listed.keys ∨ d.Lists steps name := by
  induction steps generalizing s with
  | nil => simp [build, Side.Lists]
  | cons st steps ih =>
    rw [build_cons, ih, mem_keys_side_apply, or_assoc]
    refine or_congr Iff.rfl ?_
    unfold Side.Lists
    simp only [List.mem_cons, or_and_right, exists_or]

/-! ## Steps of one kind -/

/-- The snapshot with other rights over attributes on a side. -/
def withSide (s : Snapshot) (attrs : AttrRights) : Side → Snapshot
  | .set => { s with setAttrs := attrs }
  | .get => { s with getAttrs := attrs }

theorem build_append (s : Snapshot) (steps steps' : List SnapshotStep) :
    s.build (steps ++ steps') = (s.build steps).build steps' := List.foldl_append

theorem build_presets (s : Snapshot) (rights : List String) :
    s.build (rights.map .preset) = { s with presets := rights.foldl Keyed.insert s.presets } := by
  induction rights generalizing s with
  | nil => rfl
  | cons right rights ih => rw [List.map_cons, build_cons, ih, List.foldl_cons, apply]

theorem side_withSide (s : Snapshot) (attrs : AttrRights) (d : Side) :
    (s.withSide attrs d).side d = attrs := by cases d <;> rfl

theorem withSide_withSide (s : Snapshot) (attrs attrs' : AttrRights) (d : Side) :
    (s.withSide attrs d).withSide attrs' d = s.withSide attrs' d := by cases d <;> rfl

theorem build_everyStep (s : Snapshot) (d : Side) :
    s.build [d.everyStep] = s.withSide (s.side d).coverEvery d := by cases d <;> rfl

theorem build_every {s : Snapshot} {d : Side} (h : s.side d = .none) (all : Bool) :
    s.build (if all then [d.everyStep] else []) = s.withSide ⟨all, .empty⟩ d := by
  cases all with
  | true =>
    show s.build [d.everyStep] = _
    rw [build_everyStep, h]
    rfl
  | false =>
    have hside : s.withSide (s.side d) d = s := by cases d <;> rfl
    rw [h] at hside
    exact hside.symm

theorem build_listed (s : Snapshot) (d : Side) (attrs : List EffectiveAttr) :
    s.build (attrs.map d.listStep) =
      s.withSide ⟨(s.side d).every, attrs.foldl Keyed.insert (s.side d).listed⟩ d := by
  induction attrs generalizing s with
  | nil => cases d <;> rfl
  | cons attr attrs ih =>
    rw [List.map_cons, build_cons, ih, List.foldl_cons]
    cases d <;> rfl

/-- Where nothing is covered yet, a side is filled with the attributes of the steps; of attributes
with one name the last one is kept. -/
theorem build_side {s : Snapshot} {d : Side} (h : s.side d = .none) (every : Bool)
    (attrs : List EffectiveAttr) :
    (s.build (if every then [d.everyStep] else [])).build (attrs.map d.listStep) =
      s.withSide ⟨every, .ofList EffectiveAttr.name attrs⟩ d := by
  rw [build_every h, build_listed, side_withSide, withSide_withSide]
  rfl

/-! ## Starting without rights -/

/-- Steps for preset rights, and then for one side after the other, fill each part on its own. -/
theorem build_start (type : TargetType) (id : Option String)
    (target grantee granteeName : String) (presets : List String) (setEvery getEvery : Bool)
    (sets gets : List EffectiveAttr) :
    (((((start type id target grantee granteeName).build (presets.map .preset)).build
      (if setEvery then [.setEvery] else [])).build (sets.map .set)).build
        (if getEvery then [.getEvery] else [])).build (gets.map .get) =
      ⟨type, id.getD "", target, grantee, granteeName, .ofList presets,
        ⟨setEvery, .ofList EffectiveAttr.name sets⟩,
        ⟨getEvery, .ofList EffectiveAttr.name gets⟩⟩ := by
  have hset {s : Snapshot} (h : s.setAttrs = .none) :
      (s.build (if setEvery then [.setEvery] else [])).build (sets.map .set) =
        { s with setAttrs := ⟨setEvery, .ofList EffectiveAttr.name sets⟩ } :=
    build_side (d := .set) h setEvery sets
  have hget {s : Snapshot} (h : s.getAttrs = .none) :
      (s.build (if getEvery then [.getEvery] else [])).build (gets.map .get) =
        { s with getAttrs := ⟨getEvery, .ofList EffectiveAttr.name gets⟩ } :=
    build_side (d := .get) h getEvery gets
  rw [build_presets, hset rfl, hget rfl]
  rfl

/-- The snapshot of some target for some grantee that steps fill. -/
def BuiltBy (s : Snapshot) (steps : List SnapshotStep) : Prop :=
  ∃ type id name grantee granteeName, s = (start type id name grantee granteeName).build steps

namespace BuiltBy

theorem mem_presets (h : s.BuiltBy steps) :
    name ∈ s.presets.toList ↔ .preset name ∈ steps := by
  obtain ⟨type, id, target, grantee, granteeName, rfl⟩ := h
  have hstart : name ∉ (start type id target grantee granteeName).presets.toList :=
    List.not_mem_nil
  rw [mem_presets_build, or_iff_right hstart]

theorem every_side (h : s.BuiltBy steps) : (s.side d).every = true ↔ d.everyStep ∈ steps := by
  obtain ⟨type, id, target, grantee, granteeName, rfl⟩ := h
  have hstart : ¬ ((start type id target grantee granteeName).side d).every = true := by
    cases d <;> exact Bool.false_ne_true
  rw [every_side_build, or_iff_right hstart]

theorem mem_keys_side (h : s.BuiltBy steps) :
    name ∈ (s.side d).listed.keys ↔ d.Lists steps name := by
  obtain ⟨type, id, target, grantee, granteeName, rfl⟩ := h
  have hstart : name ∉ ((start type id target grantee granteeName).side d).listed.keys := by
    cases d <;> exact List.not_mem_nil
  rw [mem_keys_side_build, or_iff_right hstart]

end BuiltBy

end Snapshot

end Delegation
