/-
# Digests decide equality of rights

Two snapshots have equal digests iff they give the same rights: the same preset rights, and on
either side both every attribute, or both the same listed ones.  That equal rights have equal
digests needs no assumption.  For the converse the hash must not collide on the bytes that are
hashed for the two snapshots, and then these bytes determine the names.

## Key constructions

* `Blake3.CollisionFree` — the hash tells some inputs apart.
* `Snapshot.preimages` — the bytes that are hashed for a snapshot.
* `Snapshot.SameNames` — snapshots that give rights of the same names.
* `GiveSameNames` — steps that give rights of the same names.

## Key results

* `Snapshot.SameNames.digest_eq`, `Snapshot.sameNames_of_digest_eq` — equal names give equal
  digests, and equal digests come from equal names unless the hash collides.
* `Snapshot.SameNames.hasNoRight_eq` — snapshots with equal names both give a right, or none.
* `Snapshot.sameNames_iff_of_builtBy` — the names that a snapshot gives are those of its steps.
* `sameRights_decides_equality_of_rights` — the comparison of digests decides equality of rights.
-/
import Delegation.Proofs.NameList
import Delegation.Proofs.Steps

namespace Delegation

/-! ## The bytes that are hashed -/

/-- The hash tells the inputs apart. -/
def Blake3.CollisionFree (inputs : List (List UInt8)) : Prop :=
  ∀ x ∈ inputs, ∀ y ∈ inputs, hash x = hash y → x = y

instance (inputs : List (List UInt8)) : Decidable (Blake3.CollisionFree inputs) :=
  inferInstanceAs (Decidable (∀ x ∈ inputs, ∀ y ∈ inputs, Blake3.hash x = Blake3.hash y → x = y))

/-- Lists of short names with equal hashes are equal, if the hash does not collide on their
bytes. -/
theorem NameListHash.eq_of_ofNames_eq {xs ys : List String} {inputs : List (List UInt8)}
    (hcoll : Blake3.CollisionFree inputs) (hxs : nameListBytes xs ∈ inputs)
    (hys : nameListBytes ys ∈ inputs) (hx : ∀ n ∈ xs, ShortName n) (hy : ∀ n ∈ ys, ShortName n)
    (h : ofNames xs = ofNames ys) : xs = ys :=
  eq_of_nameListBytes_eq hx hy (hcoll _ hxs _ hys (congrArg bytes h))

theorem AttrsDigest.ofNames_true (names : List String) : ofNames true names = .every := if_pos rfl

theorem AttrsDigest.ofNames_false (names : List String) :
    ofNames false names = .listed (.ofNames names) := if_neg Bool.false_ne_true

namespace AttrRights

/-- The bytes that are hashed for one side: a side that covers every attribute hashes none. -/
def preimages (a : AttrRights) : List (List UInt8) :=
  if a.every then [] else [nameListBytes a.listed.keys]

/-- Two sides cover the same attributes: both cover every attribute, or neither does and they list
the same ones. -/
def SameNames (a b : AttrRights) : Prop :=
  a.every = true ∧ b.every = true ∨
    a.every = false ∧ b.every = false ∧ ∀ name, name ∈ a.listed.keys ↔ name ∈ b.listed.keys

variable {a b : AttrRights}

theorem mem_preimages (h : a.every = false) : nameListBytes a.listed.keys ∈ a.preimages := by
  unfold preimages
  rw [h]
  exact List.mem_singleton_self _

/-- Sides that cover the same attributes have equal digests. -/
theorem SameNames.digest_eq (h : a.SameNames b) : a.digest = b.digest := by
  unfold digest
  rcases h with ⟨ha, hb⟩ | ⟨ha, hb, hkeys⟩
  · rw [ha, hb, AttrsDigest.ofNames_true, AttrsDigest.ofNames_true]
  · rw [ha, hb, Keyed.ext_keys hkeys]

/-- Sides with equal digests cover the same attributes, if the hash does not collide on what is
hashed for them. -/
theorem sameNames_of_digest_eq {inputs : List (List UInt8)} (hcoll : Blake3.CollisionFree inputs)
    (ha : a.preimages ⊆ inputs) (hb : b.preimages ⊆ inputs)
    (hshortA : ∀ n ∈ a.listed.keys, ShortName n) (hshortB : ∀ n ∈ b.listed.keys, ShortName n)
    (h : a.digest = b.digest) : a.SameNames b := by
  unfold digest at h
  cases hea : a.every with
  | true =>
    cases heb : b.every with
    | true => exact .inl ⟨hea, heb⟩
    | false =>
      rw [hea, heb, AttrsDigest.ofNames_true, AttrsDigest.ofNames_false] at h
      cases h
  | false =>
    cases heb : b.every with
    | true =>
      rw [hea, heb, AttrsDigest.ofNames_true, AttrsDigest.ofNames_false] at h
      cases h
    | false =>
      rw [hea, heb, AttrsDigest.ofNames_false, AttrsDigest.ofNames_false] at h
      have hkeysA := ha (mem_preimages hea)
      have hkeysB := hb (mem_preimages heb)
      have hkeys := NameListHash.eq_of_ofNames_eq hcoll hkeysA hkeysB hshortA hshortB
        (AttrsDigest.listed.inj h)
      exact .inr ⟨hea, heb, fun name => by rw [hkeys]⟩

/-- Of two sides that cover the same attributes both cover some, or none. -/
theorem SameNames.isNone_eq (h : a.SameNames b) : a.isNone = b.isNone := by
  unfold isNone
  rcases h with ⟨ha, hb⟩ | ⟨ha, hb, hkeys⟩
  · rw [ha, hb]
    rfl
  · have hempty : a.listed.keys.isEmpty = b.listed.keys.isEmpty := by rw [Keyed.ext_keys hkeys]
    unfold Keyed.keys at hempty
    rw [List.isEmpty_map, List.isEmpty_map] at hempty
    rw [ha, hb]
    exact congrArg _ hempty

end AttrRights

/-! ## Snapshots -/

namespace Snapshot

/-- The bytes that are hashed for the digest of a snapshot. -/
def preimages (s : Snapshot) : List (List UInt8) :=
  nameListBytes s.presets.toList :: (s.setAttrs.preimages ++ s.getAttrs.preimages)

/-- Two snapshots give rights of the same names. -/
structure SameNames (a b : Snapshot) : Prop where
  presets : ∀ name, name ∈ a.presets.toList ↔ name ∈ b.presets.toList
  sides : ∀ d, (a.side d).SameNames (b.side d)

variable {a b : Snapshot} {s t : List SnapshotStep}

theorem preimages_side_subset (s : Snapshot) (d : Side) : (s.side d).preimages ⊆ s.preimages := by
  intro bytes h
  refine List.mem_cons_of_mem _ (List.mem_append.mpr ?_)
  cases d with
  | set => exact .inl h
  | get => exact .inr h

/-- Snapshots that give rights of the same names have equal digests. -/
theorem SameNames.digest_eq (h : a.SameNames b) : a.digest = b.digest := by
  have hpresets : a.presets = b.presets := Keyed.ext_mem h.presets
  have hset : a.setAttrs.digest = b.setAttrs.digest := (h.sides .set).digest_eq
  have hget : a.getAttrs.digest = b.getAttrs.digest := (h.sides .get).digest_eq
  unfold digest
  rw [hpresets, hset, hget]

/-- Every name that a snapshot gives is short. -/
structure ShortNames (s : Snapshot) : Prop where
  presets : ∀ n ∈ s.presets.toList, ShortName n
  sides : ∀ d, ∀ n ∈ (s.side d).listed.keys, ShortName n

/-- Snapshots with equal digests give rights of the same names, if the names are short and the hash
does not collide on what is hashed for the two digests. -/
theorem sameNames_of_digest_eq (hcoll : Blake3.CollisionFree (a.preimages ++ b.preimages))
    (ha : a.ShortNames) (hb : b.ShortNames) (h : a.digest = b.digest) : a.SameNames b := by
  have hinA : a.preimages ⊆ a.preimages ++ b.preimages := List.subset_append_left _ _
  have hinB : b.preimages ⊆ a.preimages ++ b.preimages := List.subset_append_right _ _
  obtain ⟨hpreset, hset, hget⟩ := RightsDigest.mk.inj h
  have hpresets : a.presets.toList = b.presets.toList :=
    NameListHash.eq_of_ofNames_eq hcoll (hinA List.mem_cons_self) (hinB List.mem_cons_self)
      ha.presets hb.presets hpreset
  have hsides (d : Side) (hd : (a.side d).digest = (b.side d).digest) :
      (a.side d).SameNames (b.side d) :=
    AttrRights.sameNames_of_digest_eq hcoll (List.Subset.trans (a.preimages_side_subset d) hinA)
      (List.Subset.trans (b.preimages_side_subset d) hinB) (ha.sides d) (hb.sides d) hd
  refine ⟨fun name => by rw [hpresets], fun d => hsides d ?_⟩
  cases d with
  | set => exact hset
  | get => exact hget

/-- Of two snapshots that give rights of the same names both give some right, or none. -/
theorem SameNames.hasNoRight_eq (h : a.SameNames b) : a.hasNoRight = b.hasNoRight := by
  have hpresets : a.presets = b.presets := Keyed.ext_mem h.presets
  have hset : a.setAttrs.isNone = b.setAttrs.isNone := (h.sides .set).isNone_eq
  have hget : a.getAttrs.isNone = b.getAttrs.isNone := (h.sides .get).isNone_eq
  unfold hasNoRight
  rw [hpresets, hset, hget]

end Snapshot

/-! ## Built snapshots -/

/-- The name that a step gives. -/
def SnapshotStep.name? : SnapshotStep → Option String
  | .preset right => some right
  | .setEvery | .getEvery => none
  | .set attr | .get attr => some attr.name

/-- Two lists of steps give rights of the same names: the same preset rights, and on either side
both every attribute, or neither does and they list attributes of the same names. -/
structure GiveSameNames (s t : List SnapshotStep) : Prop where
  presets : ∀ name, .preset name ∈ s ↔ .preset name ∈ t
  sides : ∀ d : Side, d.everyStep ∈ s ∧ d.everyStep ∈ t ∨
    d.everyStep ∉ s ∧ d.everyStep ∉ t ∧ ∀ name, d.Lists s name ↔ d.Lists t name

namespace Snapshot

variable {a b : Snapshot} {s t : List SnapshotStep}

/-- The names that built snapshots give are those that their steps give. -/
theorem sameNames_iff_of_builtBy (ha : a.BuiltBy s) (hb : b.BuiltBy t) :
    a.SameNames b ↔ GiveSameNames s t := by
  have hpresets : (∀ name, name ∈ a.presets.toList ↔ name ∈ b.presets.toList) ↔
      ∀ name, .preset name ∈ s ↔ .preset name ∈ t := by
    simp only [ha.mem_presets, hb.mem_presets]
  have hsides (d : Side) : (a.side d).SameNames (b.side d) ↔
      d.everyStep ∈ s ∧ d.everyStep ∈ t ∨
        d.everyStep ∉ s ∧ d.everyStep ∉ t ∧ ∀ name, d.Lists s name ↔ d.Lists t name := by
    unfold AttrRights.SameNames
    simp only [← Bool.not_eq_true, ha.every_side, hb.every_side, ha.mem_keys_side,
      hb.mem_keys_side]
  constructor
  · intro h
    exact ⟨hpresets.mp h.presets, fun d => (hsides d).mp (h.sides d)⟩
  · intro h
    exact ⟨hpresets.mpr h.presets, fun d => (hsides d).mpr (h.sides d)⟩

/-- The names that a built snapshot gives are short if those of the steps are. -/
theorem BuiltBy.shortNames (h : a.BuiltBy s)
    (hshort : ∀ n ∈ s.filterMap SnapshotStep.name?, ShortName n) : a.ShortNames := by
  refine ⟨fun n hn => ?_, fun d n hn => ?_⟩
  · exact hshort n (List.mem_filterMap.mpr ⟨_, h.mem_presets.mp hn, rfl⟩)
  · obtain ⟨attr, hattr, rfl⟩ := h.mem_keys_side.mp hn
    refine hshort _ (List.mem_filterMap.mpr ⟨_, hattr, ?_⟩)
    cases d <;> rfl

end Snapshot

/-- **The comparison of digests decides equality of rights.**  For snapshots that are built by
whatever steps, for whatever targets and grantees: if they give the same preset rights, and on
either side both every attribute or both the same listed ones, then they compare as the same
rights.  For short names, and if the hash does not collide on what is hashed for the two snapshots,
they compare as the same rights only then, and equal digests mean that both give some right, or
none.  The names that a snapshot gives are those of its steps. -/
theorem sameRights_decides_equality_of_rights {a b : Snapshot} {s t : List SnapshotStep}
    (ha : a.BuiltBy s) (hb : b.BuiltBy t) :
    (a.SameNames b ↔ GiveSameNames s t) ∧ (a.SameNames b → a.sameRights b = true) ∧
    ((∀ n ∈ (s ++ t).filterMap SnapshotStep.name?, ShortName n) →
      Blake3.CollisionFree (a.preimages ++ b.preimages) →
      (a.sameRights b = true ↔ a.SameNames b) ∧
        (a.digest = b.digest → a.hasNoRight = b.hasNoRight)) := by
  have hif (h : a.SameNames b) : a.sameRights b = true := Snapshot.sameRights_iff.mpr h.digest_eq
  refine ⟨Snapshot.sameNames_iff_of_builtBy ha hb, hif, fun hshort hcoll => ?_⟩
  rw [List.filterMap_append, List.forall_mem_append] at hshort
  have honlyIf (h : a.digest = b.digest) : a.SameNames b :=
    Snapshot.sameNames_of_digest_eq hcoll (ha.shortNames hshort.1) (hb.shortNames hshort.2) h
  exact ⟨⟨fun h => honlyIf (Snapshot.sameRights_iff.mp h), hif⟩, fun h => (honlyIf h).hasNoRight_eq⟩

/-- Order, repetition, attribute details and identities do not count, and listed attributes do not
where every attribute is covered; but the boundaries between names do. -/
theorem boundaries_count_and_order_does_not :
    let fill (steps : List SnapshotStep) : Snapshot :=
      (Snapshot.start .account (some "a-1") "acct" "u-da" "da").build steps
    let a := fill [.preset "ab", .preset "c", .set ⟨"cn", .ofList ["x"], none⟩, .getEvery,
      .get (.bare "sn")]
    let b := (Snapshot.start .domain none "other.com" "g-admins" "admins").build
      [.getEvery, .preset "c", .set (.bare "cn"), .preset "ab", .preset "c"]
    let c := fill [.preset "ab", .preset "c", .setEvery, .getEvery]
    let d := fill [.preset "a", .preset "bc", .setEvery, .getEvery]
    a.sameRights b = true ∧ c.sameRights d = false := by
  intro fill a b c d
  have built (steps : List SnapshotStep) : (fill steps).BuiltBy steps := ⟨_, _, _, _, _, rfl⟩
  constructor
  · have hb : b.BuiltBy _ := ⟨_, _, _, _, _, rfl⟩
    obtain ⟨hnames, hif, -⟩ := sameRights_decides_equality_of_rights (built _) hb
    refine hif (hnames.mpr ⟨fun name => ?_, fun side => ?_⟩)
    · grind
    · cases side with
      | set => simp [Side.everyStep, Side.Lists, Side.listStep, EffectiveAttr.bare]
      | get => simp [Side.everyStep]
  · obtain ⟨hnames, -, hiff⟩ := sameRights_decides_equality_of_rights
      (built [.preset "ab", .preset "c", .setEvery, .getEvery])
      (built [.preset "a", .preset "bc", .setEvery, .getEvery])
    obtain ⟨hsame, -⟩ := hiff (by decide +kernel) (by decide +kernel)
    refine Bool.eq_false_iff.mpr fun h => ?_
    have hpresets := (hnames.mp (hsame.mp h)).presets "ab"
    simp at hpresets

end Delegation
