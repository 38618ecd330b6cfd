/-
# Names with several holders

A name that joins an aggregation keeps the places that it had, so it may be held by several
aggregations.  When it moves, it leaves the first of them and stays with the others.  Each time that
it joins it gains at most one holder, and moving gains none beyond the one that every name may have.

## Key constructions

* `Aggregation.Moved` — what moving a name does to a list of aggregations.
* `Insertion.joins`, `Contribution.joins` — a name joins without leaving the places that it has.

## Key results

* `Aggregation.map_without_move` — but for the name that moves, aggregations stay as they are.
* `Aggregation.mem_digestsOf_move` — where a name is listed after it has moved.
* `Aggregation.countP_lists_join_le` — a name that joins gains at most one holder.
* `Insertion.countP_lists_run_le` — how many holders a name can have.
* `TypeRights.entry_leaves_its_first_holder` — what moving an entry does, whatever came before.
-/
import Delegation.Proofs.TypeRights

namespace Delegation

namespace Aggregation

variable {a : Aggregation} {as : List Aggregation} {names : NameSet} {n name : String}
  {r : Snapshot} {d : RightsDigest}

/-! ## Aggregations but for one name -/

theorem without_without (a : Aggregation) (name : String) :
    (a.without name).without name = a.without name :=
  congrArg (Aggregation.mk · a.rights) (a.names.erase_erase name)

theorem without_including (a : Aggregation) (name : String) :
    (a.including (.ofList [name])).without name = a.without name :=
  congrArg (Aggregation.mk · a.rights) (a.names.erase_insert name)

theorem without_mk (name : String) (r : Snapshot) :
    (Aggregation.mk (.ofList [name]) r).without name = ⟨.empty, r⟩ :=
  congrArg (Aggregation.mk · r) (Keyed.empty.erase_insert name)

theorem map_without_leave (name : String) (as : List Aggregation) :
    (leave name as).map (·.without name) = as.map (·.without name) := by
  induction as with
  | nil => rfl
  | cons a as ih =>
    unfold leave
    split
    · rw [List.map_cons, List.map_cons, without_without]
    · rw [List.map_cons, List.map_cons, ih]

theorem map_without_join (name : String) (r : Snapshot) (as : List Aggregation) :
    (join (.ofList [name]) r as).map (·.without name) =
      as.map (·.without name) ++ if as.any (·.hasRights r) then [] else [⟨.empty, r⟩] := by
  induction as with
  | nil => rw [join, List.map_singleton, without_mk]; rfl
  | cons a as ih =>
    unfold join
    cases ha : a.hasRights r with
    | true => simp [ha, without_including]
    | false => simp [ha, ih]

theorem any_hasRights_iff :
    as.any (·.hasRights r) = true ↔ r.digest ∈ as.map (·.rights.digest) := by
  rw [List.any_eq_true, List.mem_map]
  exact exists_congr fun a => and_congr_right fun _ => hasRights_iff

theorem any_hasRights_leave (name : String) (r : Snapshot) (as : List Aggregation) :
    (leave name as).any (·.hasRights r) = as.any (·.hasRights r) := by
  rw [Bool.eq_iff_iff, any_hasRights_iff, any_hasRights_iff, Insertion.map_digest_eq,
    Insertion.map_digest_eq, map_rights_leave]

/-- But for the name that moves, every aggregation stays as it is at its place.  If none has the
rights, one is opened at the end, which lists no other name. -/
theorem map_without_move (name : String) (r : Snapshot) (as : List Aggregation) :
    (move name r as).map (·.without name) =
      as.map (·.without name) ++ if as.any (·.hasRights r) then [] else [⟨.empty, r⟩] := by
  unfold move
  rw [map_without_join, map_without_leave, any_hasRights_leave]

/-! ## Where a name is listed after it has moved -/

/-- If aggregations have different digests, the places but for the first one are those with another
digest than the first holder. -/
theorem mem_tail_digestsOf (h : (as.map (·.rights.digest)).Nodup) :
    d ∈ (digestsOf n as).tail ↔
      d ∈ digestsOf n as ∧ ∀ a, as.find? (·.lists n) = some a → d ≠ a.rights.digest := by
  have hnodup : (digestsOf n as).Nodup := h.sublist (List.filter_sublist.map _)
  have hhead : (digestsOf n as).head? = (as.find? (·.lists n)).map (·.rights.digest) := by
    unfold digestsOf
    rw [List.head?_map, List.head?_filter]
  cases hd : digestsOf n as with
  | nil => simp
  | cons first others =>
    rw [hd] at hnodup hhead
    obtain ⟨a, ha, hfirst⟩ := Option.map_eq_some_iff.mp hhead.symm
    obtain ⟨hnotMem, -⟩ := List.nodup_cons.mp hnodup
    rw [ha, List.tail_cons, List.mem_cons]
    constructor
    · intro hmem
      refine ⟨.inr hmem, fun b hb => ?_⟩
      obtain rfl := Option.some.inj hb
      rw [hfirst]
      exact ne_of_mem_of_not_mem hmem hnotMem
    · rintro ⟨rfl | hmem, hne⟩
      · exact absurd hfirst.symm (hne a rfl)
      · exact hmem

/-- A name that moves is listed under the digest of the rights, and where it was listed before but
for the first place. -/
theorem mem_digestsOf_move (h : (as.map (·.rights.digest)).Nodup) :
    d ∈ digestsOf name (move name r as) ↔
      d = r.digest ∨
        d ∈ digestsOf name as ∧ ∀ a, as.find? (·.lists name) = some a → d ≠ a.rights.digest := by
  unfold move
  rw [mem_digestsOf_join, digestsOf_leave, if_pos rfl, mem_tail_digestsOf h,
    and_iff_right (NameSet.mem_ofList.mpr (List.mem_singleton_self name)), or_comm]

/-- What moving a name to the rights of a snapshot does to a list of aggregations. -/
structure Moved (name : String) (r : Snapshot) (as bs : List Aggregation) : Prop where
  /-- The name is listed under the digest of the rights, and where it was listed before but for its
  first holder. -/
  digests : ∀ d, d ∈ digestsOf name bs ↔ d = r.digest ∨
    d ∈ digestsOf name as ∧ ∀ a, as.find? (·.lists name) = some a → d ≠ a.rights.digest
  /-- Other names are listed as before. -/
  others : ∀ n, n ≠ name → digestsOf n bs = digestsOf n as
  /-- But for the name, every aggregation stays as it is at its place, and one is opened at the end
  if none has the rights. -/
  places : bs.map (·.without name) =
    as.map (·.without name) ++ if as.any (·.hasRights r) then [] else [⟨.empty, r⟩]

/-! ## How many holders a name has -/

theorem length_digestsOf (n : String) (as : List Aggregation) :
    (digestsOf n as).length = as.countP (·.lists n) := by
  unfold digestsOf
  rw [List.length_map, List.countP_eq_length_filter]

/-- A name that joins gains at most one holder. -/
theorem countP_lists_join_le (n : String) (names : NameSet) (r : Snapshot)
    (as : List Aggregation) :
    (join names r as).countP (·.lists n) ≤ as.countP (·.lists n) + 1 := by
  induction as with
  | nil => exact List.countP_le_length
  | cons a as ih =>
    unfold join
    rw [List.countP_cons]
    split
    · rw [List.countP_cons]
      split <;> omega
    · rw [List.countP_cons]
      omega

theorem countP_lists_leave (n : String) (as : List Aggregation) :
    (leave n as).countP (·.lists n) = as.countP (·.lists n) - 1 := by
  rw [← length_digestsOf, ← length_digestsOf, digestsOf_leave, if_pos rfl, List.length_tail]

/-- A name that moves has no more holders than before, or one. -/
theorem countP_lists_move_le (n : String) (r : Snapshot) (as : List Aggregation) :
    (move n r as).countP (·.lists n) ≤ max 1 (as.countP (·.lists n)) := by
  have hjoin := countP_lists_join_le n (.ofList [n]) r (leave n as)
  rw [countP_lists_leave] at hjoin
  unfold move
  omega

end Aggregation

namespace Insertion

open Aggregation

/-- Whether a name joins, without leaving the places that it has. -/
def joins (n : String) : Insertion → Bool
  | move _ _ => false
  | join names _ => names.contains n

/-- A name gains a holder only when it joins, or when it has none. -/
theorem countP_lists_apply_le (n : String) (as : List Aggregation) (i : Insertion) :
    (apply as i).countP (·.lists n) ≤
      max 1 (as.countP (·.lists n)) + if i.joins n then 1 else 0 := by
  by_cases hn : n ∈ i.names.toList
  · cases i with
    | move name r =>
      obtain rfl := mem_names_move.mp hn
      exact countP_lists_move_le n r as
    | join names r =>
      have hjoins : (join names r).joins n = true := by
        unfold joins
        rw [Keyed.contains_iff, Keyed.keys_id]
        exact hn
      have hle := countP_lists_join_le n names r as
      rw [if_pos hjoins]
      show (Aggregation.join names r as).countP (·.lists n) ≤ _
      omega
  · have hsame : (apply as i).countP (·.lists n) = as.countP (·.lists n) := by
      rw [← length_digestsOf, digestsOf_apply_of_notMem hn, length_digestsOf]
    omega

/-- A name has at most one holder more than the times that it has joined. -/
theorem countP_lists_run_le (n : String) (is : List Insertion) :
    (run is).countP (·.lists n) ≤ 1 + is.countP (·.joins n) := by
  induction is using List.reverseRecOn with
  | nil => exact Nat.zero_le _
  | append_singleton is i ih =>
    have hstep := countP_lists_apply_le n (run is) i
    rw [run_concat, List.countP_append, List.countP_singleton]
    omega

end Insertion

/-- Whether the contribution lets a name join with a right, without leaving the places that it
has. -/
def Contribution.joins (n : String) : Contribution → Bool
  | .aggregation names rights => !rights.hasNoRight && names.contains n
  | .all _ | .entry _ _ | .domain _ _ => false

theorem Contribution.joins_toEntries? (n : String) (c : Contribution) :
    (c.toEntries?.map (·.joins n)).getD false = c.joins n := by
  unfold toEntries? joins
  cases hr : c.rights.hasNoRight with
  | true => cases c <;> simp_all [rights]
  | false => cases c <;> simp_all [rights, Insertion.joins]

namespace TypeRights

open Contribution

/-- **An entry leaves its first holder.**  Whatever was contributed to a type without rights, names
that have a place joining once more included: when an entry is given rights, its name is listed
under the digest of these rights, and where it was listed before but for the first place.  All other
names are listed as before, and aggregations keep their places and their rights; at most one is
opened at the end.  And at no time is a name held by more than one aggregation beyond those that it
was let join. -/
theorem entry_leaves_its_first_holder (type : TargetType) (cs : List Contribution) :
    let now := (none type).run cs
    (∀ name r, r.hasNoRight = false →
      let next := now.addEntry name r
      next = { now with entries := next.entries } ∧
        Aggregation.Moved name r now.entries next.entries) ∧
    ∀ n, now.entries.countP (·.lists n) ≤ 1 + cs.countP (·.joins n) := by
  intro now
  constructor
  · intro name r hr next
    have hnext : next = { now with entries := Aggregation.move name r now.entries } :=
      if_neg (Bool.eq_false_iff.mp hr)
    have hnodup : (now.entries.map (·.rights.digest)).Nodup := by
      unfold now
      rw [entries_run_none]
      exact Insertion.nodup_map_digest_run _
    rw [hnext]
    refine ⟨rfl, fun _ => Aggregation.mem_digestsOf_move hnodup, fun n hn => ?_,
      Aggregation.map_without_move name r now.entries⟩
    exact Insertion.digestsOf_apply_of_notMem (mt Insertion.mem_names_move.mp hn)
  · intro n
    have hcount : (cs.filterMap toEntries?).countP (·.joins n) = cs.countP (·.joins n) := by
      rw [List.countP_filterMap]
      exact congrArg cs.countP (funext (joins_toEntries? n))
    unfold now
    rw [entries_run_none, ← hcount]
    exact Insertion.countP_lists_run_le n _

/-- An account with two holders leaves the first one and stays with the second one, whatever rights
it is given. -/
theorem second_holder_keeps_name :
    let snapshot (right : String) : Snapshot :=
      (Snapshot.start .account .none "" "g" "g").build [.preset right]
    let now := (none .account).run [
      entry "ben" (snapshot "viewMail"),
      aggregation (.ofList ["ada", "ben"]) (snapshot "editMail")]
    let next := now.addEntry "ben" (snapshot "sendMail")
    (snapshot "sendMail").hasNoRight = false ∧
      (∀ d, d ∈ Aggregation.digestsOf "ben" next.entries ↔
        d = (snapshot "sendMail").digest ∨ d = (snapshot "editMail").digest) ∧
      Aggregation.digestsOf "ada" next.entries = [(snapshot "editMail").digest] := by
  intro snapshot now next
  have hright : (snapshot "sendMail").hasNoRight = false := rfl
  obtain ⟨hentry, -⟩ := entry_leaves_its_first_holder .account [
    entry "ben" (snapshot "viewMail"),
    aggregation (.ofList ["ada", "ben"]) (snapshot "editMail")]
  obtain ⟨-, hdigests, hothers, -⟩ := hentry "ben" (snapshot "sendMail") hright
  have hnow : now.entries = [⟨.ofList ["ben"], snapshot "viewMail"⟩,
    ⟨.ofList ["ada", "ben"], snapshot "editMail"⟩] := by decide +kernel
  have hne : (snapshot "editMail").digest ≠ (snapshot "viewMail").digest := by decide +kernel
  refine ⟨hright, fun d => (hdigests d).trans (or_congr Iff.rfl ?_),
    (hothers "ada" (by decide)).trans ?_⟩
  · change d ∈ Aggregation.digestsOf "ben" now.entries ∧
      (∀ a, now.entries.find? (·.lists "ben") = some a → d ≠ a.rights.digest) ↔ _
    have hben : Aggregation.digestsOf "ben" now.entries =
        [(snapshot "viewMail").digest, (snapshot "editMail").digest] := by
      rw [hnow]
      rfl
    have hfirst : now.entries.find? (·.lists "ben") =
        some ⟨.ofList ["ben"], snapshot "viewMail"⟩ := by
      rw [hnow]
      rfl
    rw [hben, hfirst]
    constructor
    · rintro ⟨hmem, hleft⟩
      simpa [hleft _ rfl] using hmem
    · rintro rfl
      refine ⟨by simp, fun a ha => ?_⟩
      cases ha
      exact hne
  · change Aggregation.digestsOf "ada" now.entries = _
    rw [hnow]
    rfl

end TypeRights

end Delegation
