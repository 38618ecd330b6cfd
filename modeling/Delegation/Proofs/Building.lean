/-
# What a snapshot is built from

The steps that build a snapshot may come in any order and be repeated.  All that counts is which
preset rights they name, which sides they cover, and which attribute they list last under each name
of a side.

## Key constructions

* `Side.ListsName` — a step lists an attribute of a name on a side.
* `Side.table` — a table for a side in which the names stand apart from the attributes.

## Key results

* `Snapshot.get?_listed_build_iff` — under a name, the attribute that was listed last is found.
* `Snapshot.build_start_eq_iff` — when steps build the same snapshot.
* `Snapshot.steps_build_normal_form` — what a snapshot is that steps build from nothing.
-/
import Delegation.Proofs.Last
import Delegation.Proofs.Steps

namespace Delegation

open Std

/-! ## Tables whose names stand apart -/

namespace Keyed

variable {α β κ : Type} [Ord κ] {key : α → κ} {key' : β → κ} {f : α → β}

theorem insertInto_map (h : ∀ a, key' (f a) = key a) (x : α) (l : List α) :
    insertInto key' (f x) (l.map f) = (insertInto key x l).map f := by
  induction l with
  | nil => rfl
  | cons y ys ih =>
    rw [List.map_cons, insertInto, insertInto, h, h]
    cases compare (key x) (key y) with
    | lt => rfl
    | eq => rfl
    | gt => exact congrArg (f y :: ·) ih

/-- A map that keeps the keys can be carried out before the elements are collected, or after. -/
theorem toList_ofList_map [TransOrd κ] [LawfulEqOrd κ] (h : ∀ a, key' (f a) = key a)
    (xs : List α) : (ofList key' (xs.map f)).toList = (ofList key xs).toList.map f := by
  have hfold (s : Keyed key) (t : Keyed key') (hst : t.toList = s.toList.map f) :
      ((xs.map f).foldl insert t).toList = (xs.foldl insert s).toList.map f := by
    induction xs generalizing s t with
    | nil => exact hst
    | cons x xs ih =>
      refine ih _ _ ?_
      show insertInto key' (f x) t.toList = _
      rw [hst]
      exact insertInto_map h x s.toList
  exact hfold empty empty rfl

end Keyed

/-! ## Steps that list attributes -/

namespace Side

/-- The step lists an attribute of the name on the side. -/
def ListsName (d : Side) (name : String) (st : SnapshotStep) : Prop :=
  ∃ attr, d.listStep attr = st ∧ attr.name = name

/-- The attribute that a step lists on the side. -/
def attr? : Side → SnapshotStep → Option EffectiveAttr
  | set, .set attr | get, .get attr => some attr
  | _, _ => none

theorem attr?_eq_some_iff {d : Side} {st : SnapshotStep} {attr : EffectiveAttr} :
    d.attr? st = some attr ↔ d.listStep attr = st := by
  cases st <;> cases d <;> simp [attr?, listStep, eq_comm]

theorem listsName_listStep {d : Side} {name : String} {attr : EffectiveAttr} :
    d.ListsName name (d.listStep attr) ↔ attr.name = name := by
  unfold ListsName
  cases d <;> simp [listStep]

/-- The table that results when each attribute that is listed on the side is entered under its name,
in the order of the steps. -/
def table (d : Side) (steps : List SnapshotStep) :
    Keyed (Prod.fst : String × EffectiveAttr → String) :=
  .ofList _ ((steps.filterMap d.attr?).map fun attr => (attr.name, attr))

end Side

namespace Snapshot

variable {s : Snapshot} {st : SnapshotStep} {steps steps' : List SnapshotStep} {d : Side}
  {name : String} {attr : EffectiveAttr}

theorem listed_apply : ((s.apply st).side d).listed =
    match d.attr? st with
    | some attr => (s.side d).listed.insert attr
    | none => (s.side d).listed := by
  cases st <;> cases d <;> rfl

/-- A side lists the attributes that steps list on it. -/
theorem listed_build : ((s.build steps).side d).listed =
    (steps.filterMap d.attr?).foldl Keyed.insert (s.side d).listed := by
  induction steps generalizing s with
  | nil => rfl
  | cons st steps ih =>
    rw [build_cons, ih, listed_apply]
    cases h : d.attr? st with
    | none => rw [List.filterMap_cons_none h]
    | some attr => rw [List.filterMap_cons_some h, List.foldl_cons]

/-- What is found under a name is set by the steps that list an attribute of this name. -/
theorem get?_listed_apply_iff : ((s.apply st).side d).listed.get? name = some attr ↔
    d.ListsName name st ∧ st = d.listStep attr ∨
      ¬ d.ListsName name st ∧ (s.side d).listed.get? name = some attr := by
  rw [listed_apply]
  cases h : d.attr? st with
  | none =>
    have hother (a : EffectiveAttr) : d.listStep a ≠ st := fun ha => by
      rw [Side.attr?_eq_some_iff.mpr ha] at h
      cases h
    simp [Side.ListsName, hother]
  | some a =>
    obtain rfl := Side.attr?_eq_some_iff.mp h
    have hsame : d.listStep a = d.listStep attr ↔ a = attr := by
      rw [← Side.attr?_eq_some_iff, Side.attr?_eq_some_iff.mpr rfl, Option.some.injEq, eq_comm]
    dsimp only
    rw [Side.listsName_listStep, hsame, Keyed.get?_insert]
    by_cases hname : a.name = name <;> simp [hname]

/-- After steps, the attribute is found under a name that was listed last under it, or else the one
that was there before. -/
theorem get?_listed_build_iff : ((s.build steps).side d).listed.get? name = some attr ↔
    IsLast (d.ListsName name) steps (d.listStep attr) ∨
      (∀ st ∈ steps, ¬ d.ListsName name st) ∧ (s.side d).listed.get? name = some attr :=
  view_foldl_iff apply (fun s => (s.side d).listed.get? name) d.listStep
    (fun _ _ _ => get?_listed_apply_iff) s attr

/-! ## Whole snapshots -/

/-- Steps leave alone for whom and for what a snapshot is. -/
theorem build_eq_parts (s : Snapshot) (steps : List SnapshotStep) : s.build steps =
    { s with
      presets := (s.build steps).presets
      setAttrs := (s.build steps).setAttrs
      getAttrs := (s.build steps).getAttrs } := by
  induction steps generalizing s with
  | nil => rfl
  | cons st steps ih =>
    refine (ih (s.apply st)).trans ?_
    cases st <;> rfl

theorem build_congr (hpresets : (s.build steps).presets = (s.build steps').presets)
    (hside : ∀ d, (s.build steps).side d = (s.build steps').side d) :
    s.build steps = s.build steps' := by
  have hset : (s.build steps).setAttrs = (s.build steps').setAttrs := hside .set
  have hget : (s.build steps).getAttrs = (s.build steps').getAttrs := hside .get
  rw [build_eq_parts s steps, build_eq_parts s steps', hpresets, hset, hget]

namespace BuiltBy

variable (h : s.BuiltBy steps)

include h

/-- Under each name of a side, the attribute is found that was listed last. -/
theorem get?_listed_iff : (s.side d).listed.get? name = some attr ↔
    IsLast (d.ListsName name) steps (d.listStep attr) := by
  obtain ⟨type, id, target, grantee, granteeName, rfl⟩ := h
  have hstart : ((start type id target grantee granteeName).side d).listed.get? name = none := by
    cases d <;> rfl
  rw [get?_listed_build_iff, hstart]
  simp

/-- Each attribute of a side stands under its own name. -/
theorem toList_table :
    (d.table steps).toList = (s.side d).listed.toList.map fun attr => (attr.name, attr) := by
  obtain ⟨type, id, target, grantee, granteeName, rfl⟩ := h
  have hstart : ((start type id target grantee granteeName).side d).listed = .empty := by
    cases d <;> rfl
  rw [listed_build, hstart]
  exact Keyed.toList_ofList_map (fun _ => rfl) _

end BuiltBy

/-- Two lists of steps build the same snapshot iff they name the same preset rights, cover the same
sides, and list the same attributes last. -/
theorem build_start_eq_iff {type : TargetType} {id : Option String}
    {target grantee granteeName : String} :
    (start type id target grantee granteeName).build steps =
        (start type id target grantee granteeName).build steps' ↔
      (∀ n, .preset n ∈ steps ↔ .preset n ∈ steps') ∧
      ∀ d : Side, (d.everyStep ∈ steps ↔ d.everyStep ∈ steps') ∧
        ∀ n attr, IsLast (d.ListsName n) steps (d.listStep attr) ↔
          IsLast (d.ListsName n) steps' (d.listStep attr) := by
  have hr : ((start type id target grantee granteeName).build steps).BuiltBy steps :=
    ⟨_, _, _, _, _, rfl⟩
  have hr' : ((start type id target grantee granteeName).build steps').BuiltBy steps' :=
    ⟨_, _, _, _, _, rfl⟩
  simp only [← hr.mem_presets, ← hr'.mem_presets, ← hr.every_side, ← hr'.every_side,
    ← hr.get?_listed_iff, ← hr'.get?_listed_iff]
  constructor
  · intro h
    rw [h]
    exact ⟨fun _ => Iff.rfl, fun _ => ⟨Iff.rfl, fun _ _ => Iff.rfl⟩⟩
  · rintro ⟨hpresets, hsides⟩
    refine build_congr (Keyed.ext_mem hpresets) fun d => ?_
    obtain ⟨hevery, hlisted⟩ := hsides d
    have hlisted := Keyed.ext_get? fun n => Option.ext (hlisted n)
    show AttrRights.mk _ _ = AttrRights.mk _ _
    rw [AttrRights.mk.injEq]
    exact ⟨Bool.eq_iff_iff.mpr hevery, hlisted⟩

/-- **Steps build a normal form.**  Whatever the steps, the preset rights of the snapshot that they
build are those that they name, in strictly ascending order.  A side covers every attribute iff a
step says so, and lists the names of the attributes that steps list on this side, in strictly
ascending order; it is the table in which each attribute is entered under its own name, and under
each name it has the attribute that was listed last.  So steps that are put in another order or
repeated build the same snapshot, provided that the same attributes are listed last. -/
theorem steps_build_normal_form (type : TargetType) (id : Option String)
    (target grantee granteeName : String) (steps : List SnapshotStep) :
    let build := (start type id target grantee granteeName).build
    let r := build steps
    (r.presets.toList.Pairwise (· < ·) ∧ ∀ n, n ∈ r.presets.toList ↔ .preset n ∈ steps) ∧
    (∀ d : Side,
      ((r.side d).every = true ↔ d.everyStep ∈ steps) ∧
      (r.side d).listed.keys.Pairwise (· < ·) ∧
      (∀ n, n ∈ (r.side d).listed.keys ↔ ∃ attr, d.listStep attr ∈ steps ∧ attr.name = n) ∧
      (d.table steps).toList = (r.side d).listed.toList.map (fun attr => (attr.name, attr)) ∧
      ∀ n attr, (r.side d).listed.get? n = some attr ↔
        IsLast (d.ListsName n) steps (d.listStep attr)) ∧
    ∀ steps', (∀ st, st ∈ steps' ↔ st ∈ steps) →
      (∀ (d : Side) n attr, IsLast (d.ListsName n) steps' (d.listStep attr) ↔
        IsLast (d.ListsName n) steps (d.listStep attr)) →
      build steps' = r := by
  intro build r
  have hr : r.BuiltBy steps := ⟨_, _, _, _, _, rfl⟩
  refine ⟨⟨r.presets.ascending.imp compare_text_eq_lt_iff.mp, fun _ => hr.mem_presets⟩,
    fun d => ⟨hr.every_side, ?_, fun _ => hr.mem_keys_side, hr.toList_table,
      fun _ _ => hr.get?_listed_iff⟩, fun steps' hsame hlast => ?_⟩
  · exact (r.side d).listed.pairwise_keys.imp compare_text_eq_lt_iff.mp
  · exact build_start_eq_iff.mpr
      ⟨fun _ => hsame _, fun d => ⟨hsame _, fun n attr => hlast d n attr⟩⟩

/-- Two sides list an attribute of one name; where two attributes are listed under it, the last one
is found, also if steps are repeated and stand elsewhere. -/
theorem reordered_steps_build_one_snapshot :
    let old : EffectiveAttr := .bare "mail"
    let new : EffectiveAttr := ⟨"mail", .ofList ["none"], none⟩
    let build := (start .account none "ada" "g" "admin").build
    let steps : List SnapshotStep := [.set old, .preset "b", .get old, .set new, .preset "a"]
    let steps' : List SnapshotStep :=
      [.preset "a", .set new, .get old, .set old, .preset "b", .preset "a", .set new, .get old]
    build steps' = build steps ∧ (build steps).setAttrs.listed.toList = [new] := by
  intro old new build steps steps'
  refine ⟨(steps_build_normal_form .account none "ada" "g" "admin" steps).2.2 steps' ?_ ?_,
    by decide⟩
  · intro st
    simp only [steps, steps', List.mem_cons, List.not_mem_nil, or_false]
    grind
  · intro d n attr
    -- Both attributes have one name, so the first one is never the last that is listed for setting.
    have hname : old.name = new.name := rfl
    cases d <;>
      simp only [steps, steps', isLast_cons, not_isLast_nil, Side.ListsName, Side.listStep] <;>
      grind

end Snapshot

end Delegation
