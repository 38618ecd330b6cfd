/-
# What spelling out attributes leaves alone

Where a profile covers every attribute, a caller decides whether the attributes are spelled out as
well.  The names that count are the same either way, so the snapshots of two such calls are alike,
and every decision along a report (whether a contribution is dropped or refused, which aggregation
a name leaves and which one it joins) looks at nothing but what alike snapshots have in common.
Two reports that differ in what is spelled out therefore group the same names in the same places.

## Key constructions

* `Snapshot.Alike`, `Aggregation.Alike`, `TypeRights.Alike`, `RightsReport.Alike` — the same names
  in the same places, under rights with the same digest.
* `Contribution.Alike` — the same place, and alike rights.
* `SameResult` — two successes with related values, or the same failure twice.

## Key results

* `RightsProfile.alike_fill` — what a profile gives is alike, whatever is spelled out.
* `Aggregation.alike_leave`, `Aggregation.alike_join` — alike lists stay alike.
* `TypeRights.add_alike`, `RightsReport.add_alike` — alike contributions keep reports alike.
* `Engine.collect_alike` — so do runs of them, with the same events.
* `expansion_keeps_groups` — spelling attributes out never changes who is grouped with whom.
-/
import Delegation.Engine.Query
import Delegation.Proofs.Report
import Delegation.Proofs.Request
import Delegation.Proofs.SameRights
import Delegation.Script
import Mathlib.Data.List.Forall2
import Mathlib.Data.Option.Defs

namespace Delegation

/-! ## Profiles -/

namespace RightsProfile

variable {p : RightsProfile} {s g s' g' : Bool} {d : Side} {name : String} {attr : EffectiveAttr}

/-- Whether the profile covers every attribute on a side. -/
def covers (p : RightsProfile) : Side → Bool
  | .set => p.setEvery
  | .get => p.getEvery

/-- The attributes that the profile lists on a side by itself. -/
def attrs (p : RightsProfile) : Side → List EffectiveAttr
  | .set => p.setAttrs
  | .get => p.getAttrs

theorem preset_mem_steps : .preset name ∈ p.steps s g ↔ name ∈ p.preset := by
  simp [steps]

theorem everyStep_mem_steps : d.everyStep ∈ p.steps s g ↔ p.covers d = true := by
  cases d <;> simp [steps, Side.everyStep, covers]

theorem listStep_mem_steps :
    d.listStep attr ∈ p.steps s g ↔
      attr ∈ p.sideAttrs (p.covers d) (d.choose s g) (p.attrs d) := by
  cases d <;> simp [steps, Side.listStep, Side.choose, covers, attrs]

/-- Where the profile does not cover every attribute, nothing more is spelled out. -/
theorem lists_steps (h : p.covers d = false) :
    d.Lists (p.steps s g) name ↔ ∃ attr ∈ p.attrs d, attr.name = name := by
  unfold Side.Lists
  simp only [listStep_mem_steps, h]
  rfl

/-- The names that count are the same, whatever is spelled out. -/
theorem giveSameNames_steps (p : RightsProfile) (s g s' g' : Bool) :
    GiveSameNames (p.steps s g) (p.steps s' g') where
  presets name := by rw [preset_mem_steps, preset_mem_steps]
  sides d := by
    simp only [everyStep_mem_steps]
    -- Where every attribute is covered the list does not count; elsewhere nothing is spelled out.
    cases h : p.covers d with
    | true => exact .inl ⟨rfl, rfl⟩
    | false =>
      refine .inr ⟨Bool.false_ne_true, Bool.false_ne_true, fun name => ?_⟩
      rw [lists_steps h, lists_steps h]

end RightsProfile

/-! ## Alike snapshots -/

/-- Two snapshots have the same digest, and both give some right or none. -/
structure Snapshot.Alike (a b : Snapshot) : Prop where
  digest : a.digest = b.digest
  hasNoRight : a.hasNoRight = b.hasNoRight

theorem Snapshot.SameNames.alike {a b : Snapshot} (h : a.SameNames b) : a.Alike b :=
  ⟨h.digest_eq, h.hasNoRight_eq⟩

/-- What a profile gives is alike, whatever is spelled out. -/
theorem RightsProfile.alike_fill (p : RightsProfile) (s g s' g' : Bool) (type : TargetType)
    (id : Option String) (name grantee granteeName : String) :
    (p.fill s g (.start type id name grantee granteeName)).Alike
      (p.fill s' g' (.start type id name grantee granteeName)) := by
  have built (s g : Bool) :
      (p.fill s g (.start type id name grantee granteeName)).BuiltBy (p.steps s g) :=
    ⟨type, id, name, grantee, granteeName, rfl⟩
  have hnames := (Snapshot.sameNames_iff_of_builtBy (built s g) (built s' g')).mpr
    (p.giveSameNames_steps s g s' g')
  exact hnames.alike

/-! ## Alike aggregations -/

/-- Two aggregations list the same names under alike rights. -/
structure Aggregation.Alike (a b : Aggregation) : Prop where
  names : a.names = b.names
  rights : a.rights.Alike b.rights

namespace Aggregation

variable {a b : Aggregation} {as bs : List Aggregation} {r r' : Snapshot} {name : String}
  {names : NameSet}

theorem Alike.lists_eq (h : a.Alike b) (name : String) : a.lists name = b.lists name := by
  unfold lists
  rw [h.names]

theorem Alike.hasRights_eq (h : a.Alike b) (hr : r.Alike r') :
    a.hasRights r = b.hasRights r' := by
  unfold hasRights Snapshot.sameRights
  rw [h.rights.digest, hr.digest]

/-- A name leaves alike lists at the same place. -/
theorem alike_leave (h : List.Forall₂ Alike as bs) (name : String) :
    List.Forall₂ Alike (leave name as) (leave name bs) := by
  induction h with
  | nil => exact .nil
  | @cons a b as bs hab hrest ih =>
    unfold leave
    rw [hab.lists_eq]
    split
    · have hwithout : (a.without name).Alike (b.without name) := by
        refine ⟨?_, hab.rights⟩
        unfold without
        rw [hab.names]
      exact .cons hwithout hrest
    · exact .cons hab ih

/-- Names join alike lists at the same place. -/
theorem alike_join (h : List.Forall₂ Alike as bs) (names : NameSet) (hr : r.Alike r') :
    List.Forall₂ Alike (join names r as) (join names r' bs) := by
  induction h with
  | nil => exact .cons ⟨rfl, hr⟩ .nil
  | @cons a b as bs hab hrest ih =>
    unfold join
    rw [hab.hasRights_eq hr]
    split
    · have hincluding : (a.including names).Alike (b.including names) := by
        refine ⟨?_, hab.rights⟩
        unfold including
        rw [hab.names]
      exact .cons hincluding hrest
    · exact .cons hab ih

theorem alike_move (h : List.Forall₂ Alike as bs) (name : String) (hr : r.Alike r') :
    List.Forall₂ Alike (move name r as) (move name r' bs) :=
  alike_join (alike_leave h name) _ hr

theorem moveEvent_eq (h : List.Forall₂ Alike as bs) (name : String) (hr : r.Alike r') :
    moveEvent name r as = moveEvent name r' bs := by
  have hany : as.any (·.hasRights r) = bs.any (·.hasRights r') := by
    induction h with
    | nil => rw [List.any_nil, List.any_nil]
    | cons hab _ ih => rw [List.any_cons, List.any_cons, hab.hasRights_eq hr, ih]
  unfold moveEvent
  rw [hany, hr.digest]

end Aggregation

/-! ## Alike contributions -/

/-- Two contributions give alike rights at the same place. -/
inductive Contribution.Alike : Contribution → Contribution → Prop
  | all {r r' : Snapshot} (h : r.Alike r') : Alike (.all r) (.all r')
  | entry {r r' : Snapshot} (name : String) (h : r.Alike r') :
    Alike (.entry name r) (.entry name r')
  | aggregation {r r' : Snapshot} (names : NameSet) (h : r.Alike r') :
    Alike (.aggregation names r) (.aggregation names r')
  | domain {r r' : Snapshot} (name : String) (h : r.Alike r') :
    Alike (.domain name r) (.domain name r')

theorem Contribution.Alike.rights {c c' : Contribution} (h : c.Alike c') :
    c.rights.Alike c'.rights := by
  cases h <;> assumption

/-- Two successes with related values, or the same failure twice. -/
inductive SameResult {ε α : Type} (R : α → α → Prop) : Except ε α → Except ε α → Prop
  | ok {a b : α} (h : R a b) : SameResult R (.ok a) (.ok b)
  | error (e : ε) : SameResult R (.error e) (.error e)

/-! ## Alike rights on one type -/

/-- The rights on two types are alike: rights on every entry, and on the same names in the same
places. -/
structure TypeRights.Alike (t t' : TypeRights) : Prop where
  type : t.type = t'.type
  all : Option.Rel Snapshot.Alike t.all t'.all
  entries : List.Forall₂ Aggregation.Alike t.entries t'.entries
  domains : Option.Rel (List.Forall₂ Aggregation.Alike) t.domains t'.domains

namespace TypeRights

variable {t t' : TypeRights} {c c' : Contribution}

theorem alike_none (type : TargetType) : (none type).Alike (none type) := by
  refine ⟨rfl, .none, .nil, ?_⟩
  unfold none
  split
  · exact .some .nil
  · exact .none

/-- Alike contributions to alike rights are dropped, taken in and refused alike. -/
theorem add_alike (h : t.Alike t') (hc : c.Alike c') :
    SameResult Alike (t.add c) (t'.add c') := by
  obtain ⟨type, all, entries, domains⟩ := t
  obtain ⟨type', all', entries', domains'⟩ := t'
  obtain ⟨rfl, hall, hentries, hdomains⟩ := h
  cases hc with
  | all hr =>
    simp only [add, setAll]
    rw [hr.hasNoRight]
    split
    · exact .ok ⟨rfl, hall, hentries, hdomains⟩
    · exact .ok ⟨rfl, .some hr, hentries, hdomains⟩
  | entry name hr =>
    simp only [add, addEntry]
    rw [hr.hasNoRight]
    split
    · exact .ok ⟨rfl, hall, hentries, hdomains⟩
    · exact .ok ⟨rfl, hall, Aggregation.alike_move hentries name hr, hdomains⟩
  | aggregation names hr =>
    simp only [add, addAggregation]
    rw [hr.hasNoRight]
    split
    · exact .ok ⟨rfl, hall, hentries, hdomains⟩
    · exact .ok ⟨rfl, hall, Aggregation.alike_join hentries names hr, hdomains⟩
  | domain name hr =>
    simp only [add, addDomain]
    rw [hr.hasNoRight]
    split
    · exact .ok ⟨rfl, hall, hentries, hdomains⟩
    · cases hdomains with
      | none => exact .error _
      | some hds => exact .ok ⟨rfl, hall, hentries, .some (Aggregation.alike_move hds name hr)⟩

/-- Alike contributions to alike rights are reported alike. -/
theorem events_eq (h : t.Alike t') (hc : c.Alike c') : t.events c = t'.events c' := by
  obtain ⟨type, all, entries, domains⟩ := t
  obtain ⟨type', all', entries', domains'⟩ := t'
  obtain ⟨rfl, hall, hentries, hdomains⟩ := h
  unfold events
  rw [hc.rights.hasNoRight]
  split
  · rfl
  · cases hc with
    | all hr => cases hall <;> rfl
    | entry name hr => exact congrArg ([·]) (Aggregation.moveEvent_eq hentries name hr)
    | aggregation names hr => rfl
    | domain name hr =>
      cases hdomains with
      | none => rfl
      | some hds => exact congrArg ([·]) (Aggregation.moveEvent_eq hds name hr)

end TypeRights

/-! ## Alike reports -/

/-- Two reports on the same grantee are alike on every type. -/
structure RightsReport.Alike (r r' : RightsReport) : Prop where
  granteeType : r.granteeType = r'.granteeType
  granteeId : r.granteeId = r'.granteeId
  granteeName : r.granteeName = r'.granteeName
  on : ∀ type, (r.on type).Alike (r'.on type)

namespace RightsReport

variable {r r' : RightsReport} {c c' : Contribution}

theorem alike_start (granteeType granteeId granteeName : String) :
    (start granteeType granteeId granteeName).Alike (start granteeType granteeId granteeName) := by
  refine ⟨rfl, rfl, rfl, fun type => ?_⟩
  rw [on_start]
  exact TypeRights.alike_none type

/-- Alike contributions keep reports alike, or are refused for the same reason. -/
theorem add_alike (h : r.Alike r') (type : TargetType) (hc : c.Alike c') :
    SameResult Alike (r.add type c) (r'.add type c') := by
  have hadd := TypeRights.add_alike (h.on type) hc
  cases ht : (r.on type).add c with
  | error e =>
    rw [ht] at hadd
    cases ht' : (r'.on type).add c' with
    | ok t' =>
      rw [ht'] at hadd
      cases hadd
    | error e' =>
      rw [ht'] at hadd
      cases hadd
      rw [add_of_error ht, add_of_error ht']
      exact .error e
  | ok t =>
    rw [ht] at hadd
    cases ht' : (r'.on type).add c' with
    | error e' =>
      rw [ht'] at hadd
      cases hadd
    | ok t' =>
      rw [ht'] at hadd
      rw [add_of_ok ht, add_of_ok ht']
      cases hadd with
      | ok halike =>
        refine .ok ⟨h.granteeType, h.granteeId, h.granteeName, fun type' => ?_⟩
        rw [on_insert, on_insert, halike.type]
        split
        · exact halike
        · exact h.on type'

end RightsReport

/-! ## Runs -/

namespace Engine

variable {D C E S : Type}

/-- Collecting alike contributions ends alike, and in the same world. -/
theorem collect_alike {ops ops' : List (TargetType × Contribution)}
    (hops : List.Forall₂ (fun op op' => op.1 = op'.1 ∧ op.2.Alike op'.2) ops ops')
    {r r' : RightsReport} (h : r.Alike r') (w : World D C E S) :
    SameResult RightsReport.Alike ((collect r ops : Request D C E S _).run w).1
        ((collect r' ops' : Request D C E S _).run w).1 ∧
      ((collect r ops : Request D C E S _).run w).2 =
        ((collect r' ops' : Request D C E S _).run w).2 := by
  induction hops generalizing r r' w with
  | nil => exact ⟨.ok h, rfl⟩
  | @cons op op' ops ops' hop _ ih =>
    obtain ⟨type, c⟩ := op
    obtain ⟨type', c'⟩ := op'
    obtain ⟨rfl, hc⟩ : type = type' ∧ c.Alike c' := hop
    have hevents : r.events type c = r'.events type c' := TypeRights.events_eq (h.on type) hc
    have hadd := RightsReport.add_alike h type hc
    unfold collect
    rw [Request.run_bind, Request.run_bind, Request.run_note, Request.run_note, hevents]
    generalize r.add type c = result at hadd
    generalize r'.add type c' = result' at hadd
    cases hadd with
    | ok hr => exact ih hr _
    | error e => exact ⟨.error _, rfl⟩

end Engine

/-! ## Two calls -/

/-- The contributions of a script are alike, whatever is spelled out. -/
theorem Script.contributions_alike (script : Script) (grantee : GranteeEntry) (s g s' g' : Bool) :
    List.Forall₂ (fun op op' => op.1 = op'.1 ∧ op.2.Alike op'.2)
      (script.contributions grantee s g) (script.contributions grantee s' g') := by
  unfold contributions
  refine List.forall₂_map_left_iff.mpr (List.forall₂_map_right_iff.mpr ?_)
  refine List.forall₂_same.mpr fun p _ => ⟨rfl, ?_⟩
  have hrights (name : String) := p.profile.alike_fill s g s' g' p.type none name grantee.id
    grantee.name
  unfold PlacedRights.contribution
  cases p.placement with
  | all => exact .all (hrights "")
  | entry name => exact .entry name (hrights name)
  | aggregation names => exact .aggregation names (hrights "")
  | domain name => exact .domain name (hrights name)

/-- **Spelling attributes out never changes who is grouped with whom.**  Whatever a script places,
and whichever sides two calls for the rights of a grantee spell out, both calls are refused for the
same reason, or both are answered.  The reports then are alike: on each type there are rights on
every entry in both or in neither, with one digest, and the lists of entries and of domains have the
same names under rights with the same digest at every position.  Nor do the calls leave different
worlds behind. -/
theorem expansion_keeps_groups {D C S : Type} (directory : DirectoryService D)
    (catalog : CatalogService C) (store : StoreService S) (supportsDelegation : Bool)
    (config : Config) (w : World D C Script S) (grantee : GranteeAddress) (s g s' g' : Bool) :
    let engine : Engine D C Script S :=
      ⟨⟨directory, catalog, Script.service supportsDelegation, store⟩, config⟩
    let once := (engine.allEffectiveRights grantee s g).run w
    let again := (engine.allEffectiveRights grantee s' g').run w
    SameResult RightsReport.Alike once.1 again.1 ∧ once.2 = again.2 := by
  intro engine once again
  unfold once again Engine.allEffectiveRights
  rw [Request.run_bind, Request.run_bind]
  cases ((engine.lookupGrantee grantee).run w).1 with
  | error e => exact ⟨.error e, rfl⟩
  | ok entry =>
    have hscript := Script.contributions_alike ((engine.lookupGrantee grantee).run w).2.evaluator
      entry s g s' g'
    exact Engine.collect_alike hscript (RightsReport.alike_start _ _ _) _

end Delegation
