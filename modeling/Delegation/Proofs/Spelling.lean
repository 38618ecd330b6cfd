/-
# What spelling out attributes adds

A profile that covers every attribute may spell out a list of them, and it may list attributes with
details by itself.  Both are filed under their names, the profile's own attributes last, so these
keep their details.  What is spelled out besides is bare, and nothing else in a snapshot changes.

## Key constructions

* `RightsProfile.Plain` — a snapshot gives what a profile holds by itself.
* `RightsProfile.SpelledOut` — one snapshot is another one with more attributes spelled out.
* `Script.profile` — the rights that a script gives to a grantee on a target.
* `Engine.lookups` — finds the target and the account of a query.

## Key results

* `RightsProfile.fill_eq` — what a profile fills in.
* `RightsProfile.mem_listed_iff` — which attributes are listed on a side, and with which details.
* `RightsProfile.spelledOut_fill` — spelling out adds bare attributes to what a profile fills in.
* `Engine.run_effectiveRights_script` — a query over a script is answered from a profile.
* `spelling_out_only_adds_bare_attributes` — so it does in profiles and in queries for rights.
-/
import Delegation.Proofs.Expansion
import Delegation.Rehearsal.Sample
import Delegation.Store.Ledger

namespace Delegation

open Std

/-! ## What a profile fills in -/

namespace RightsProfile

variable {p : RightsProfile} {s g expand : Bool} {type : TargetType} {id : Option String}
  {name grantee granteeName : String} {d : Side} {attr : EffectiveAttr}

/-- A profile fills each part of a snapshot on its own. -/
theorem fill_eq : p.fill s g (.start type id name grantee granteeName) =
    ⟨type, id.getD "", name, grantee, granteeName, .ofList p.preset,
      ⟨p.setEvery, .ofList EffectiveAttr.name (p.sideAttrs p.setEvery s p.setAttrs)⟩,
      ⟨p.getEvery, .ofList EffectiveAttr.name (p.sideAttrs p.getEvery g p.getAttrs)⟩⟩ := by
  simp only [fill, steps, Snapshot.build_append]
  exact Snapshot.build_start ..

theorem side_fill : (p.fill s g (.start type id name grantee granteeName)).side d =
    ⟨p.covers d,
      .ofList EffectiveAttr.name (p.sideAttrs (p.covers d) (d.choose s g) (p.attrs d))⟩ := by
  rw [fill_eq]
  cases d <;> rfl

/-- Attributes that are spelled out are bare, unless the profile lists them by itself. -/
theorem mem_sideAttrs_iff {every : Bool} {own : List EffectiveAttr} :
    attr ∈ (Keyed.ofList EffectiveAttr.name (p.sideAttrs every expand own)).toList ↔
      attr ∈ (Keyed.ofList EffectiveAttr.name own).toList ∨
      (every = true ∧ expand = true) ∧ attr.name ∈ p.allAttrs ∧ attr = .bare attr.name ∧
        attr.name ∉ own.map EffectiveAttr.name := by
  have hbare : attr ∈ (Keyed.ofList EffectiveAttr.name (p.allAttrs.map .bare)).toList ↔
      attr.name ∈ p.allAttrs ∧ attr = .bare attr.name := Keyed.mem_ofList_map fun _ => rfl
  rw [← Bool.and_eq_true]
  unfold sideAttrs
  cases every && expand with
  | true =>
    have hlast : Keyed.ofList EffectiveAttr.name (p.allAttrs.map .bare ++ own) =
        own.foldl Keyed.insert (Keyed.ofList EffectiveAttr.name (p.allAttrs.map .bare)) :=
      List.foldl_append
    rw [if_pos rfl, hlast, Keyed.mem_foldl_insert, hbare, and_iff_right rfl, and_assoc]
  | false =>
    rw [if_neg Bool.false_ne_true, List.nil_append]
    exact (or_iff_left fun h => Bool.false_ne_true h.1).symm

theorem mem_listed_iff :
    attr ∈ ((p.fill s g (.start type id name grantee granteeName)).side d).listed.toList ↔
      attr ∈ (Keyed.ofList EffectiveAttr.name (p.attrs d)).toList ∨
      (p.covers d = true ∧ d.choose s g = true) ∧ attr.name ∈ p.allAttrs ∧
        attr = .bare attr.name ∧ attr.name ∉ (p.attrs d).map EffectiveAttr.name := by
  rw [side_fill]
  exact mem_sideAttrs_iff

/-- Without flags a side lists the profile's own attributes. -/
theorem listed_fill_plain :
    ((p.fill false false (.start type id name grantee granteeName)).side d).listed =
      .ofList EffectiveAttr.name (p.attrs d) := by
  rw [side_fill]
  unfold sideAttrs
  cases d <;> simp [Side.choose]

/-! ## Spelling out -/

/-- The snapshot gives what the profile holds by itself, and nothing else. -/
structure Plain (p : RightsProfile) (r : Snapshot) : Prop where
  presets : r.presets = .ofList p.preset
  every : ∀ d, (r.side d).every = p.covers d
  listed : ∀ d, (r.side d).listed = .ofList EffectiveAttr.name (p.attrs d)

/-- What the profile gives if it spells attributes out on the sides of the flags, next to what it
gives if it spells out none, which is what it holds by itself: the same names, rights and digest,
all attributes with the same details, and more attributes only where the profile covers every
attribute and the flag is set.  These are bare, and they are those of the profile that it does not
list by itself. -/
structure SpelledOut (p : RightsProfile) (s g : Bool) (plain full : Snapshot) : Prop where
  own : p.Plain plain
  targetType : full.targetType = plain.targetType
  targetId : full.targetId = plain.targetId
  targetName : full.targetName = plain.targetName
  granteeId : full.granteeId = plain.granteeId
  granteeName : full.granteeName = plain.granteeName
  presets : full.presets = plain.presets
  every : ∀ d, (full.side d).every = (plain.side d).every
  digest : full.digest = plain.digest
  hasNoRight : full.hasNoRight = plain.hasNoRight
  kept : ∀ d, ∀ attr ∈ (plain.side d).listed.toList, attr ∈ (full.side d).listed.toList
  added : ∀ d attr, attr ∈ (full.side d).listed.toList ∧ attr.name ∉ (plain.side d).listed.keys ↔
    (p.covers d = true ∧ d.choose s g = true) ∧ attr.name ∈ p.allAttrs ∧
      attr = .bare attr.name ∧ attr.name ∉ (p.attrs d).map EffectiveAttr.name

theorem plain_fill :
    p.Plain (p.fill false false (.start type id name grantee granteeName)) where
  presets := by rw [fill_eq]
  every d := by rw [side_fill]
  listed d := listed_fill_plain

theorem spelledOut_fill :
    p.SpelledOut s g (p.fill false false (.start type id name grantee granteeName))
      (p.fill s g (.start type id name grantee granteeName)) where
  own := plain_fill
  targetType := by rw [fill_eq, fill_eq]
  targetId := by rw [fill_eq, fill_eq]
  targetName := by rw [fill_eq, fill_eq]
  granteeId := by rw [fill_eq, fill_eq]
  granteeName := by rw [fill_eq, fill_eq]
  presets := by rw [fill_eq, fill_eq]
  every d := by rw [side_fill, side_fill]
  digest := (p.alike_fill s g false false type id name grantee granteeName).digest
  hasNoRight := (p.alike_fill s g false false type id name grantee granteeName).hasNoRight
  kept d attr hattr := by
    rw [listed_fill_plain] at hattr
    exact mem_listed_iff.mpr (.inl hattr)
  added d attr := by
    rw [mem_listed_iff, listed_fill_plain, Keyed.mem_keys_ofList]
    constructor
    · rintro ⟨hown | hspelled, hname⟩
      · exact (hname (List.mem_map_of_mem (Keyed.mem_of_mem_ofList hown))).elim
      · exact hspelled
    · intro hspelled
      exact ⟨.inr hspelled, hspelled.2.2.2⟩

end RightsProfile

/-! ## Queries for rights -/

/-- The rights that a script gives to a grantee on the target of a name. -/
def Script.profile (script : Script) (granteeId targetName : String) : RightsProfile :=
  match script.effective.find? fun e => e.1 = (granteeId, targetName) with
  | some (_, profile) => profile
  | none => ⟨[], [], false, false, [], []⟩

theorem Script.effectiveSteps_eq (script : Script) (grantee : GranteeEntry) (target : TargetEntry)
    (s g : Bool) :
    script.effectiveSteps grantee target s g =
      (script.profile grantee.id target.name).steps s g := by
  unfold effectiveSteps profile
  cases script.effective.find? fun e => e.1 = (grantee.id, target.name) <;> rfl

namespace Engine

open Request

variable {D C S : Type} {engine : Engine D C Script S} {b : Bool}

/-- An engine over a script gives what the profile of the grantee on the target fills in. -/
theorem run_evaluate_script (he : engine.evaluator = Script.service b) (w : World D C Script S)
    (target : TargetEntry) (grantee : GranteeEntry) (s g : Bool) :
    (engine.evaluate target grantee s g).run w =
      (.ok ((w.evaluator.profile grantee.id target.name).fill s g
        (.start target.type target.id target.name grantee.id grantee.name)), w) := by
  unfold evaluate RightsProfile.fill
  rw [he, ← Script.effectiveSteps_eq]
  rfl

/-- Finds the target and the account of a query. -/
def lookups (engine : Engine D C Script S) (a : TargetAddress) (account : Locator) :
    Request D C Script S (TargetEntry × GranteeEntry) := do
  let target ← engine.lookupTarget a
  let grantee ← engine.lookupAccount account
  return (target, grantee)

/-- Looking up a target and an account asks the evaluator nothing. -/
theorem evaluator_lookups (engine : Engine D C Script S) (a : TargetAddress) (account : Locator)
    (w : World D C Script S) :
    ((engine.lookupAccount account).run ((engine.lookupTarget a).run w).2).2.evaluator =
      w.evaluator := by
  unfold lookupAccount
  rw [run_bind]
  split
  · split <;> rfl
  · rfl

/-- A query for rights is refused if the target or the account is not found, and otherwise answered
from the profile of the script. -/
theorem run_effectiveRights_script (he : engine.evaluator = Script.service b)
    (w : World D C Script S) (a : TargetAddress) (account : Locator) (s g : Bool) :
    (engine.effectiveRights a account s g).run w =
      (((engine.lookups a account).run w).1.map fun (target, grantee) =>
          (w.evaluator.profile grantee.id target.name).fill s g
            (.start target.type target.id target.name grantee.id grantee.name),
        ((engine.lookups a account).run w).2) := by
  have hscript := engine.evaluator_lookups a account w
  unfold effectiveRights lookups
  rw [run_bind, run_bind]
  cases ((engine.lookupTarget a).run w).1 with
  | error e => rfl
  | ok target =>
    dsimp only
    rw [run_bind, run_bind]
    cases ((engine.lookupAccount account).run ((engine.lookupTarget a).run w).2).1 with
    | error e => rfl
    | ok grantee =>
      dsimp only
      rw [run_evaluate_script he, hscript]
      rfl

end Engine

/-- **Spelling out only adds bare attributes.**  Whatever a profile holds, without flags it gives
just that to a grantee on a target, and with the flags `s` and `g` it gives the same with attributes
spelled out besides.  The same holds of two queries for the rights of an account on a target,
whatever script answers them: if the target or the account is not found, both are refused for this
reason; otherwise both are answered, from the profile that the script has for the grantee and the
target.  Nor do the queries leave different worlds behind. -/
theorem spelling_out_only_adds_bare_attributes :
    (∀ (p : RightsProfile) (s g : Bool) (type : TargetType) (id : Option String)
        (name grantee granteeName : String),
      p.SpelledOut s g (p.fill false false (.start type id name grantee granteeName))
        (p.fill s g (.start type id name grantee granteeName))) ∧
    ∀ {D C S : Type} (directory : DirectoryService D) (catalog : CatalogService C)
        (store : StoreService S) (supportsDelegation : Bool) (config : Config)
        (w : World D C Script S) (a : TargetAddress) (account : Locator) (s g : Bool),
      let engine : Engine D C Script S :=
        ⟨⟨directory, catalog, Script.service supportsDelegation, store⟩, config⟩
      let plain := (engine.effectiveRights a account false false).run w
      let full := (engine.effectiveRights a account s g).run w
      plain.2 = full.2 ∧
      match ((engine.lookups a account).run w).1 with
      | .error e => plain.1 = .error e ∧ full.1 = .error e
      | .ok (target, grantee) => ∃ r r', plain.1 = .ok r ∧ full.1 = .ok r' ∧
          (w.evaluator.profile grantee.id target.name).SpelledOut s g r r' := by
  refine ⟨fun _ _ _ _ _ _ _ _ => RightsProfile.spelledOut_fill, ?_⟩
  intro D C S directory catalog store supportsDelegation config w a account s g engine plain full
  have hrun (s g : Bool) := engine.run_effectiveRights_script rfl w a account s g
  unfold plain full
  rw [hrun false false, hrun s g]
  refine ⟨rfl, ?_⟩
  cases ((engine.lookups a account).run w).1 with
  | error e => exact ⟨rfl, rfl⟩
  | ok found => exact ⟨_, _, rfl, rfl, RightsProfile.spelledOut_fill⟩

/-- An account that may read every attribute is told so without the flag, and with it the attributes
are listed. -/
example :
    let p : RightsProfile := ⟨[], Sample.accountAttrs.toList, false, true, [], []⟩
    let engine : Engine Directory Catalog Script Ledger :=
      ⟨⟨Directory.service, Catalog.service, Script.service true, Ledger.service⟩, ⟨true, true⟩⟩
    let w : World Directory Catalog Script Ledger := ⟨Sample.directory, Sample.catalog,
      Script.empty.setEffective "u-da" "user@example.com" p, .empty, []⟩
    let readable (expand : Bool) : Except RequestError AttrRights :=
      ((engine.effectiveRights ⟨.account, .byId, "u-user"⟩ ⟨.byId, "u-da"⟩ false expand).run
        w).1.map (·.getAttrs)
    readable false = .ok ⟨true, .empty⟩ ∧
      readable true = .ok ⟨true, .ofList EffectiveAttr.name (p.allAttrs.map .bare)⟩ := by
  intro p engine w readable
  constructor <;> rfl

/-- An attribute that the profile lists by itself keeps its defaults when it is spelled out, and an
attribute that is repeated is listed once. -/
example :
    let own : EffectiveAttr := ⟨"mail", .ofList ["none"], none⟩
    let p : RightsProfile := ⟨[], ["cn", "mail", "cn"], true, true, [own], []⟩
    ((p.fill true false (.start .account none "" "" "")).side .set).listed.toList =
      [.bare "cn", own] := by decide

end Delegation
