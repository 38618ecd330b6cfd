/-
# Names of grantees in lists of grants

A query for grants looks the names of the grantees up while it walks through the grants, and looks
no grantee up again that it has found.  What it shows is what one look-up for each grant would show.
Names are for display only: lists under other names, or under no names at all, are equal as lists of
grants.

## Key constructions

* `Acl.ShowsEach` — a list shows each of some grants once, under its name.
* `Engine.showing` — the engine that shows names of grantees, or does not.

## Key results

* `Acl.showsEach_ofGrants`, `Acl.ShowsEach.sameGrants` — what is shown of grants that differ, and
  that the names are no part of it.
* `Engine.grants_are_named_as_looked_up` — the query for the grants on a target, with names and
  without.
-/
import Delegation.Proofs.Listing
import Delegation.Rehearsal.Sample
import Delegation.Script

namespace Delegation

/-! ## Lists that show each grant once -/

namespace Acl

variable {acl acl' : Acl} {name name' : Grant → String} {gs : List Grant}

/-- The list has one entry for each of the grants, under its name, and no others. -/
def ShowsEach (acl : Acl) (name : Grant → String) (gs : List Grant) : Prop :=
  acl.toList.Perm (gs.map fun g => g.named (name g))

theorem showsEach_ofGrants (h : gs.Nodup) : (ofGrants name gs).ShowsEach name gs := by
  have hentries : (gs.map fun g => g.named (name g)).Nodup :=
    List.Pairwise.map _ (fun _ _ hne heq => hne (congrArg AclEntry.grant heq)) h
  refine (List.perm_ext_iff_of_nodup (Keyed.nodup _) hentries).mpr fun e => ?_
  rw [mem_ofGrants, List.mem_map]
  constructor
  · rintro ⟨hg, hname⟩
    exact ⟨e.grant, hg, by rw [← hname]; rfl⟩
  · rintro ⟨g, hg, rfl⟩
    exact ⟨hg, rfl⟩

theorem eq_ofGrants_of_named {answer : GranteeKey → Except ServiceError GranteeEntry}
    (h : named answer gs = .ok acl) : ∃ name, acl = ofGrants name gs := by
  unfold named at h
  split at h
  · cases h
  · cases h
    exact ⟨_, rfl⟩

theorem ShowsEach.mem_grants (h : acl.ShowsEach name gs) {g : Grant} : g ∈ acl.grants ↔ g ∈ gs := by
  have hgrants : acl.grants.Perm gs := by
    have := h.map AclEntry.grant
    rwa [List.map_map, show AclEntry.grant ∘ (fun g : Grant => g.named (name g)) = id from rfl,
      List.map_id] at this
  exact hgrants.mem_iff

/-- Names are no part of what is granted. -/
theorem ShowsEach.sameGrants (h : acl.ShowsEach name gs) (h' : acl'.ShowsEach name' gs) :
    acl.SameGrants acl' :=
  Keyed.ext_keys fun _ => h.mem_grants.trans h'.mem_grants.symm

end Acl

/-! ## Queries with names and without -/

namespace Engine

variable {D C E S : Type}

/-- The engine that shows the names of grantees if `names` is set, and their identifiers if not. -/
def showing (engine : Engine D C E S) (names : Bool) : Engine D C E S :=
  { engine with config := { engine.config with resolveGranteeNames := names } }

/-- **Names are those that look-ups find.**  Let a store list different grants on a target, and let
a directory that finds this target answer look-ups without side effects.  If no look-up of the
grantees fails, except that grantees are missing, then the query for the grants shows each of them
once, under the name that the look-up of its grantee finds, or under the identifier of the grantee
if the grantee is missing; otherwise the query fails as the first of these look-ups does.  An engine
that shows no names shows each grant under the identifier.  All these lists, also those after
changes of the directory that leave the target in place, are equal as lists of grants. -/
theorem grants_are_named_as_looked_up (engine : Engine D C E S) (w : World D C E S)
    (target : D → TargetType → Locator → Except ServiceError TargetEntry)
    (grantee : D → GranteeType → Locator → Except ServiceError GranteeEntry)
    (hd : engine.directory.AnsweredBy target grantee) (a : TargetAddress) (t : TargetEntry)
    (gs : List Grant) (s : S) (hs : (engine.store.grants t).run w.store = (.ok gs, s))
    (hgs : gs.Nodup) :
    let listed (names : Bool) (d : D) :=
      (((engine.showing names).grants a).run { w with directory := d }).1
    let found (d : D) : Prop := target d a.type a.locator = .ok t
    let answer (d : D) (g : Grant) := grantee d g.granteeType ⟨.byId, g.granteeId⟩
    (∀ d, found d →
      ((∀ g ∈ gs, failure? (answer d g) = none) → ∃ acl, listed true d = .ok acl ∧
        acl.ShowsEach (fun g => (foundName? (answer d g)).getD g.granteeId) gs) ∧
      (∀ e, gs.findSome? (fun g => failure? (answer d g)) = some e →
        listed true d = .error (.ofService e)) ∧
      ∃ acl, listed false d = .ok acl ∧ acl.ShowsEach Grant.granteeId gs) ∧
    ∀ d d' names names' acl acl', found d → found d' → listed names d = .ok acl →
      listed names' d' = .ok acl' → acl.SameGrants acl' := by
  intro listed found answer
  have hrun (names : Bool) {d : D} (ht : found d) :
      ((engine.showing names).grants a).run { w with directory := d } =
        (if names then Acl.named (fun k => grantee d k.type ⟨.byId, k.id⟩) gs
          else .ok (.ofGrants Grant.granteeId gs), { w with directory := d, store := s }) :=
    (engine.showing names).run_grants_answered (w := { w with directory := d }) hd ht hs
  have hnamed {d : D} (ht : found d) :
      listed true d = Acl.named (fun k => grantee d k.type ⟨.byId, k.id⟩) gs :=
    congrArg Prod.fst (hrun true ht)
  have hplain {d : D} (ht : found d) : listed false d = .ok (.ofGrants Grant.granteeId gs) :=
    congrArg Prod.fst (hrun false ht)
  have hshows (names : Bool) {d : D} (ht : found d) {acl : Acl} (h : listed names d = .ok acl) :
      ∃ name, acl.ShowsEach name gs := by
    cases names with
    | false =>
      rw [hplain ht] at h
      cases h
      exact ⟨_, Acl.showsEach_ofGrants hgs⟩
    | true =>
      rw [hnamed ht] at h
      obtain ⟨name, rfl⟩ := Acl.eq_ofGrants_of_named h
      exact ⟨_, Acl.showsEach_ofGrants hgs⟩
  refine ⟨fun d ht => ⟨fun hfound => ?_, fun e hfailed => ?_, ?_⟩, ?_⟩
  · exact ⟨_, (hnamed ht).trans (Acl.named_eq_ok hfound), Acl.showsEach_ofGrants hgs⟩
  · exact (hnamed ht).trans (Acl.named_eq_error hfailed)
  · exact ⟨_, hplain ht, Acl.showsEach_ofGrants hgs⟩
  · intro d d' names names' acl acl' ht ht' h h'
    obtain ⟨name, hacl⟩ := hshows names ht h
    obtain ⟨name', hacl'⟩ := hshows names' ht' h'
    exact hacl.sameGrants hacl'

/-- A user and a group share an identifier, and are shown under names of their own.  Once the user
is gone and the group is renamed, the same grants are shown under other names. -/
theorem removed_grantee_is_shown_by_identifier :
    let engine := Engine.inMemory Catalog.service (Script.service true) ⟨true, true⟩
    let user : Grant := ⟨.user, "u-da", "renameAccount", none⟩
    let group : Grant := ⟨.group, "u-da", "renameAccount", none⟩
    let now : World Directory Catalog Script Ledger :=
      ⟨Sample.directory.addGrantee (.plain .group "u-da" "team@example.com"), Sample.catalog,
        .empty, Ledger.add .empty ⟨.account, "u-user"⟩ [user, group], []⟩
    let gone : Directory := now.directory.removeGrantee ⟨.user, "u-da"⟩
    let later := { now with directory := gone.addGrantee (.plain .group "u-da" "crew@example.com") }
    let a : TargetAddress := ⟨.account, .byId, "u-user"⟩
    ∃ acl acl', ((engine.grants a).run now).1 = .ok acl ∧
      acl.toList.Perm [user.named "da@example.com", group.named "team@example.com"] ∧
      ((engine.grants a).run later).1 = .ok acl' ∧
      acl'.toList.Perm [user.named "u-da", group.named "crew@example.com"] ∧
      acl.SameGrants acl' := by
  intro engine user group now gone later a
  let t := Sample.member .account "u-user" "user@example.com"
  have hon : now.store.on t.key = [user, group] := by decide
  obtain ⟨heach, hsame⟩ := grants_are_named_as_looked_up engine now Directory.lookupTarget
    Directory.lookupGrantee Directory.answeredBy_service a t [user, group] now.store
    (congrArg (fun gs => (Except.ok gs, now.store)) hon) (by decide)
  obtain ⟨acl, hacl, hnow⟩ := (heach now.directory (by rfl)).1 (by decide)
  obtain ⟨acl', hacl', hlater⟩ := (heach later.directory (by rfl)).1 (by decide)
  exact ⟨acl, acl', hacl, hnow, hacl', hlater,
    hsame _ _ true true acl acl' (by rfl) (by rfl) hacl hacl'⟩

end Engine

end Delegation
