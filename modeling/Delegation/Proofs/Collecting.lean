/-
# How entries are collected

An access control list is collected from entries in whatever order, and some of them may show one
grant under several display names.  The list has one entry for each grant, in the order of the
grants, and of the entries that show a grant the last one stays.

## Key constructions

* `Grant.Precedes` — the order of grants, column by column.

## Key results

* `Grant.compare_eq_lt_iff` — grants are sorted by type, identifier, right and modifier.
* `Acl.sameGrants_ofEntries_iff` — lists are equal iff they are collected from the same grants.
* `Acl.entries_are_collected_by_grant` — what a list is that is collected from entries.
-/
import Delegation.Acl
import Delegation.Proofs.Last
import Mathlib.Data.Finset.Card

namespace Delegation

open Std

/-! ## The order of grants -/

/-- The place of a modifier among those of one grant: first comes a grant without modifier. -/
def Modifier.rank (m : Option Modifier) : Nat := m.elim 0 fun m => m.index + 1

theorem Modifier.compare_eq_lt_iff {m m' : Option Modifier} :
    compare m m' = .lt ↔ rank m < rank m' := by
  rcases m with _ | _ | _ <;> rcases m' with _ | _ | _ <;> decide

theorem GranteeType.compare_eq_lt_iff {t t' : GranteeType} :
    compare t t' = .lt ↔ t.index < t'.index := Nat.compare_eq_lt

namespace Grant

/-- A grant precedes another by type, then by identifier, then by right, then by modifier. -/
def Precedes (a b : Grant) : Prop :=
  a.granteeType.index < b.granteeType.index ∨ a.granteeType = b.granteeType ∧
    (a.granteeId < b.granteeId ∨ a.granteeId = b.granteeId ∧
      (a.right < b.right ∨ a.right = b.right ∧
        Modifier.rank a.modifier < Modifier.rank b.modifier))

theorem compare_eq_lt_iff {a b : Grant} : compare a b = .lt ↔ a.Precedes b := by
  show order a b = .lt ↔ _
  simp only [order, compareLex, compareOn, Ordering.then_eq_lt, LawfulEqCmp.compare_eq_iff_eq,
    GranteeType.compare_eq_lt_iff, compare_text_eq_lt_iff, Modifier.compare_eq_lt_iff]
  rfl

end Grant

/-! ## Lists of entries -/

namespace Acl

variable {entries entries' : List AclEntry} {e : AclEntry} {name name' : Grant → String}
  {gs gs' : List Grant}

theorem sameGrant_iff {a b : AclEntry} : a.sameGrant b = true ↔ a.grant = b.grant := by
  unfold AclEntry.sameGrant
  exact decide_eq_true_iff

theorem pairwise_precedes (acl : Acl) :
    acl.toList.Pairwise fun a b => a.grant.Precedes b.grant :=
  acl.ascending.imp Grant.compare_eq_lt_iff.mp

/-- The entries of a list are those that are the last ones to show their grants. -/
theorem mem_ofEntries_iff :
    e ∈ (ofEntries entries).toList ↔ IsLast (fun x => x.sameGrant e = true) entries e := by
  simp only [sameGrant_iff]
  exact Keyed.mem_ofList_iff

/-- A list shows every grant of the entries, and each of them once. -/
theorem size_ofEntries (entries : List AclEntry) :
    (ofEntries entries).size = (entries.map AclEntry.grant).toFinset.card := by
  have hsame : (ofEntries entries).grants.toFinset = (entries.map AclEntry.grant).toFinset :=
    List.toFinset.ext fun g => Keyed.mem_keys_ofList
  have hnodup : (ofEntries entries).grants.Nodup :=
    Keyed.nodup_of_ascending (ofEntries entries).pairwise_keys
  rw [← hsame, List.toFinset_card_of_nodup hnodup]
  exact (List.length_map _).symm

/-- Two lists are equal, whatever their names, iff they are collected from the same grants. -/
theorem sameGrants_ofEntries_iff :
    SameGrants (ofEntries entries) (ofEntries entries') ↔
      ∀ g, g ∈ entries.map AclEntry.grant ↔ g ∈ entries'.map AclEntry.grant := by
  simp only [← Keyed.mem_keys_ofList]
  constructor
  · intro h g
    exact iff_of_eq (congrArg (g ∈ ·) h)
  · exact Keyed.ext_keys

/-! ## Lists of grants under names -/

/-- Showing grants under names neither drops nor adds one. -/
theorem grants_ofGrants (name : Grant → String) {gs : List Grant}
    (h : gs.Pairwise fun a b => compare a b = .lt) : (ofGrants name gs).grants = gs := by
  have hentries : (gs.map fun g => g.named (name g)).Pairwise
      fun a b => compare a.grant b.grant = .lt := List.pairwise_map.mpr h
  show (ofGrants name gs).toList.map AclEntry.grant = gs
  unfold ofGrants
  rw [Keyed.toList_ofList hentries, List.map_map]
  exact List.map_id gs

/-- A list shows each of its grants under its name. -/
theorem mem_ofGrants :
    e ∈ (ofGrants name gs).toList ↔ e.grant ∈ gs ∧ e.granteeName = name e.grant := by
  have hnamed : e = e.grant.named (name e.grant) ↔ e.granteeName = name e.grant := by
    obtain ⟨grant, granteeName⟩ := e
    unfold Grant.named
    rw [AclEntry.mk.injEq, and_iff_right rfl]
  rw [← hnamed]
  exact Keyed.mem_ofList_map fun _ => rfl

/-- Lists of the same grants under the same names are shown alike, in whatever order. -/
theorem ofGrants_congr (h : ∀ g, g ∈ gs ↔ g ∈ gs') (hname : ∀ g ∈ gs, name g = name' g) :
    ofGrants name gs = ofGrants name' gs' :=
  Keyed.ext_mem fun e => by
    rw [mem_ofGrants, mem_ofGrants, ← h]
    exact and_congr_right fun he => by rw [hname _ he]

/-! ## What is collected -/

/-- **Entries are collected by their grants.**  The list that is collected from entries is in
strictly ascending order of type, identifier, right and modifier.  It contains an entry iff one of
the entries shows the same grant, and it has as many entries as there are different grants.  It
keeps the entries that are the last ones to show their grants, under their own names.  So two lists
are equal iff they are collected from the same grants, whatever the order, the repetitions and the
names; and a list that is collected again from its own grants is equal to it, whatever the names. -/
theorem entries_are_collected_by_grant (entries : List AclEntry) :
    let acl := ofEntries entries
    acl.toList.Pairwise (fun a b => a.grant.Precedes b.grant) ∧
    (∀ x : AclEntry, acl.contains x.grant = true ↔ ∃ e ∈ entries, e.sameGrant x = true) ∧
    acl.size = (entries.map AclEntry.grant).toFinset.card ∧
    (∀ e, e ∈ acl.toList ↔ IsLast (fun x => x.sameGrant e = true) entries e) ∧
    (∀ entries', SameGrants acl (ofEntries entries') ↔
      ∀ g, g ∈ entries.map AclEntry.grant ↔ g ∈ entries'.map AclEntry.grant) ∧
    ∀ name : Grant → String, SameGrants (ofGrants name acl.grants) acl := by
  intro acl
  refine ⟨pairwise_precedes acl, fun x => ?_, size_ofEntries entries, fun _ => mem_ofEntries_iff,
    fun _ => sameGrants_ofEntries_iff, fun name => ?_⟩
  · rw [Keyed.contains_iff, Keyed.mem_keys_ofList, List.mem_map]
    simp only [sameGrant_iff]
  · exact grants_ofGrants name acl.pairwise_keys

/-- Of two entries for one grant the second one stays, and it stands behind the grant of a user. -/
example :
    let group : Grant := ⟨.group, "g", "r", none⟩
    let user : Grant := ⟨.user, "u", "r", some .deny⟩
    (ofEntries [group.named "old", user.named "Ann", group.named "new"]).toList =
      [user.named "Ann", group.named "new"] := by decide

end Acl

end Delegation
