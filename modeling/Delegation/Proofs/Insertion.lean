/-
# Insertions into lists of aggregations

A list of aggregations grows by insertions.  An insertion moves one name, or it joins several names
at once without looking for their former places.  Either way at most one aggregation loses a name,
and then one aggregation gains names: the first one with the digest of the rights, or else a new
one at the end.  All that is said about lists of aggregations follows from these two descriptions.

## Key constructions

* `Insertion` — one name moved, or several names joined.
* `Insertion.run` — the list of aggregations that insertions leave behind.
* `Insertion.last?` — the last insertion that names a name.
* `Aggregation.digestsOf` — the digests of the aggregations that list a name.
* `Aggregation.Placed` — a name is listed under the digest of some rights and nowhere else.
* `Insertion.Recorded` — what a list of aggregations says about the insertions behind it.
* `Insertion.MayPrecede` — the later of two insertions lets no name of the earlier one join.

## Key results

* `Aggregation.leave_cases`, `Aggregation.join_cases` — what leaving and joining do to a list.
* `Aggregation.digestsOf_leave`, `Aggregation.mem_digestsOf_join` — the listings of a name.
* `Insertion.map_rights_apply` — aggregations keep their places and their rights.
* `Insertion.map_digest_run` — aggregations are in the order in which their digests first appear.
* `Insertion.lists_run_iff` — the names listed are those that were inserted.
* `Insertion.recorded_run` — what holds after any insertions.
* `Insertion.digestsOf_run`, `Insertion.placed_run` — a name is listed once, under the digest of its
  last insertion.
-/
import Delegation.Aggregation
import Mathlib.Data.List.Induction
import Mathlib.Data.List.Nodup

namespace Delegation

namespace Aggregation

variable {a : Aggregation} {as bs : List Aggregation} {names : NameSet} {n name : String}
  {r : Snapshot} {d : RightsDigest}

/-! ## One aggregation -/

theorem lists_iff : a.lists n = true ↔ n ∈ a.names.toList := by
  unfold lists
  rw [Keyed.contains_iff, Keyed.keys_id]

theorem lists_without : (a.without name).lists n = true ↔ a.lists n = true ∧ n ≠ name := by
  rw [lists_iff, lists_iff]
  unfold without
  rw [Keyed.mem_erase]
  rfl

theorem lists_including :
    (a.including names).lists n = true ↔ a.lists n = true ∨ n ∈ names.toList := by
  rw [lists_iff, lists_iff]
  unfold including
  exact NameSet.mem_foldl_insert

@[simp] theorem rights_without : (a.without name).rights = a.rights := rfl

@[simp] theorem rights_including : (a.including names).rights = a.rights := rfl

theorem hasRights_iff : a.hasRights r = true ↔ a.rights.digest = r.digest :=
  Snapshot.sameRights_iff

/-! ## Leaving and joining -/

/-- A name leaves the first aggregation that lists it, if there is one. -/
theorem leave_cases (name : String) (as : List Aggregation) :
    (∃ before a after, as = before ++ a :: after ∧ (∀ b ∈ before, b.lists name = false) ∧
      a.lists name = true ∧ leave name as = before ++ a.without name :: after) ∨
    (∀ b ∈ as, b.lists name = false) ∧ leave name as = as := by
  induction as with
  | nil => exact .inr ⟨fun b hb => absurd hb List.not_mem_nil, rfl⟩
  | cons a as ih =>
    unfold leave
    cases ha : a.lists name with
    | true => exact .inl ⟨[], a, as, rfl, fun b hb => absurd hb List.not_mem_nil, ha, rfl⟩
    | false =>
      rcases ih with ⟨before, b, after, rfl, hbefore, hb, hleave⟩ | ⟨hnone, hleave⟩
      · refine .inl ⟨a :: before, b, after, rfl, List.forall_mem_cons.mpr ⟨ha, hbefore⟩, hb, ?_⟩
        rw [hleave]
        rfl
      · refine .inr ⟨List.forall_mem_cons.mpr ⟨ha, hnone⟩, ?_⟩
        rw [hleave]
        rfl

/-- Names join the first aggregation with the digest of the rights, if there is one, and else open
an aggregation at the end. -/
theorem join_cases (names : NameSet) (r : Snapshot) (as : List Aggregation) :
    (∃ before a after, as = before ++ a :: after ∧ a.rights.digest = r.digest ∧
      join names r as = before ++ a.including names :: after) ∨
    (∀ b ∈ as, b.rights.digest ≠ r.digest) ∧ join names r as = as ++ [⟨names, r⟩] := by
  induction as with
  | nil => exact .inr ⟨fun b hb => absurd hb List.not_mem_nil, rfl⟩
  | cons a as ih =>
    unfold join
    cases ha : a.hasRights r with
    | true => exact .inl ⟨[], a, as, rfl, hasRights_iff.mp ha, rfl⟩
    | false =>
      have hne : a.rights.digest ≠ r.digest := fun h => by
        rw [hasRights_iff.mpr h] at ha
        cases ha
      rcases ih with ⟨before, b, after, rfl, hb, hjoin⟩ | ⟨hnone, hjoin⟩
      · refine .inl ⟨a :: before, b, after, rfl, hb, ?_⟩
        rw [hjoin]
        rfl
      · refine .inr ⟨List.forall_mem_cons.mpr ⟨hne, hnone⟩, ?_⟩
        rw [hjoin]
        rfl

/-- Leaving changes no rights. -/
theorem map_rights_leave (name : String) (as : List Aggregation) :
    (leave name as).map rights = as.map rights := by
  rcases leave_cases name as with ⟨before, a, after, rfl, -, -, h⟩ | ⟨-, h⟩
  · rw [h]
    simp
  · rw [h]

/-- Joining adds the rights at the end, if they have a digest that no aggregation has. -/
theorem map_rights_join (names : NameSet) (r : Snapshot) (as : List Aggregation) :
    (join names r as).map rights =
      if r.digest ∈ as.map (·.rights.digest) then as.map rights else as.map rights ++ [r] := by
  rcases join_cases names r as with ⟨before, a, after, rfl, ha, h⟩ | ⟨hnone, h⟩
  · have hmem : r.digest ∈ (before ++ a :: after).map (·.rights.digest) :=
      List.mem_map.mpr ⟨a, List.mem_append_right before List.mem_cons_self, ha⟩
    rw [h, if_pos hmem]
    simp
  · have hnotMem : r.digest ∉ as.map (·.rights.digest) := by
      intro hmem
      obtain ⟨b, hb, hdigest⟩ := List.mem_map.mp hmem
      exact hnone b hb hdigest
    rw [h, if_neg hnotMem, List.map_append]
    rfl

/-! ## The listings of a name -/

/-- The digests of the aggregations that list a name, in their order. -/
def digestsOf (n : String) (as : List Aggregation) : List RightsDigest :=
  (as.filter fun a => a.lists n).map fun a => a.rights.digest

theorem digestsOf_nil : digestsOf n [] = [] := rfl

theorem digestsOf_append : digestsOf n (as ++ bs) = digestsOf n as ++ digestsOf n bs := by
  unfold digestsOf
  rw [List.filter_append, List.map_append]

theorem digestsOf_cons_of_lists (h : a.lists n = true) :
    digestsOf n (a :: as) = a.rights.digest :: digestsOf n as := by
  simp [digestsOf, h]

theorem digestsOf_cons_of_not_lists (h : ¬ a.lists n = true) :
    digestsOf n (a :: as) = digestsOf n as := by
  simp [digestsOf, h]

theorem mem_digestsOf_cons :
    d ∈ digestsOf n (a :: as) ↔ a.lists n = true ∧ d = a.rights.digest ∨ d ∈ digestsOf n as := by
  by_cases ha : a.lists n = true
  · rw [digestsOf_cons_of_lists ha, List.mem_cons, and_iff_right ha]
  · rw [digestsOf_cons_of_not_lists ha, or_iff_right fun h => ha h.1]

theorem exists_lists_iff : (∃ a ∈ as, a.lists n = true) ↔ ∃ d, d ∈ digestsOf n as := by
  unfold digestsOf
  constructor
  · rintro ⟨a, ha, hl⟩
    exact ⟨_, List.mem_map.mpr ⟨a, List.mem_filter.mpr ⟨ha, hl⟩, rfl⟩⟩
  · rintro ⟨d, hd⟩
    obtain ⟨a, ha, -⟩ := List.mem_map.mp hd
    exact ⟨a, List.mem_filter.mp ha⟩

theorem digestsOf_eq_nil_iff : digestsOf n as = [] ↔ ∀ a ∈ as, a.lists n = false := by
  unfold digestsOf
  simp [List.filter_eq_nil_iff]

/-- A name is listed under the digest of some rights and nowhere else, or it is listed nowhere. -/
def Placed (n : String) : Option Snapshot → List Aggregation → Prop
  | some r, as => ∃ a, as.filter (·.lists n) = [a] ∧ a.rights.digest = r.digest
  | none, as => as.filter (·.lists n) = []

theorem placed_of_digestsOf_eq {r : Option Snapshot}
    (h : digestsOf n as = (r.map Snapshot.digest).toList) : Placed n r as := by
  unfold digestsOf at h
  cases r with
  | some r => exact List.map_eq_singleton_iff.mp h
  | none => exact List.map_eq_nil_iff.mp h

/-- A name that leaves is listed once less, and the others are listed as before. -/
theorem digestsOf_leave (n name : String) (as : List Aggregation) :
    digestsOf n (leave name as) = if n = name then (digestsOf n as).tail else digestsOf n as := by
  rcases leave_cases name as with ⟨before, a, after, rfl, hbefore, ha, h⟩ | ⟨hnone, h⟩
  · rw [h, digestsOf_append, digestsOf_append]
    by_cases hn : n = name
    · subst hn
      have hgone : ¬ (a.without n).lists n = true := fun hl => (lists_without.mp hl).2 rfl
      rw [if_pos rfl, digestsOf_cons_of_not_lists hgone, digestsOf_cons_of_lists ha,
        digestsOf_eq_nil_iff.mpr hbefore]
      rfl
    · rw [if_neg hn]
      have hsame : (a.without name).lists n = true ↔ a.lists n = true := by
        rw [lists_without, and_iff_left hn]
      by_cases hl : a.lists n = true
      · rw [digestsOf_cons_of_lists (hsame.mpr hl), digestsOf_cons_of_lists hl, rights_without]
      · rw [digestsOf_cons_of_not_lists (mt hsame.mp hl), digestsOf_cons_of_not_lists hl]
  · rw [h]
    by_cases hn : n = name
    · subst hn
      rw [digestsOf_eq_nil_iff.mpr hnone, List.tail_nil, ite_self]
    · rw [if_neg hn]

/-- Names that join are listed under the digest of the rights, besides where they were listed
before. -/
theorem mem_digestsOf_join :
    d ∈ digestsOf n (join names r as) ↔ d ∈ digestsOf n as ∨ n ∈ names.toList ∧ d = r.digest := by
  rcases join_cases names r as with ⟨before, a, after, rfl, ha, h⟩ | ⟨-, h⟩
  · rw [h, digestsOf_append, digestsOf_append, List.mem_append, List.mem_append,
      mem_digestsOf_cons, mem_digestsOf_cons, lists_including, rights_including, ha]
    simp only [or_and_right, or_left_comm, or_comm]
  · have hnew : (Aggregation.mk names r).lists n = true ↔ n ∈ names.toList := lists_iff
    rw [h, digestsOf_append, List.mem_append, mem_digestsOf_cons, hnew, digestsOf_nil,
      or_iff_left List.not_mem_nil]

/-- A name that does not join is listed as before. -/
theorem digestsOf_join_of_notMem (hn : n ∉ names.toList) :
    digestsOf n (join names r as) = digestsOf n as := by
  rcases join_cases names r as with ⟨before, a, after, rfl, -, h⟩ | ⟨-, h⟩
  · have hsame : (a.including names).lists n = true ↔ a.lists n = true := by
      rw [lists_including, or_iff_left hn]
    rw [h, digestsOf_append, digestsOf_append]
    by_cases hl : a.lists n = true
    · rw [digestsOf_cons_of_lists (hsame.mpr hl), digestsOf_cons_of_lists hl, rights_including]
    · rw [digestsOf_cons_of_not_lists (mt hsame.mp hl), digestsOf_cons_of_not_lists hl]
  · have hnew : ¬ (Aggregation.mk names r).lists n = true := mt lists_iff.mp hn
    rw [h, digestsOf_append, digestsOf_cons_of_not_lists hnew, digestsOf_nil, List.append_nil]

/-- A name that joins and was listed nowhere is listed once. -/
theorem digestsOf_join_of_unlisted (hn : n ∈ names.toList) (hunlisted : digestsOf n as = []) :
    digestsOf n (join names r as) = [r.digest] := by
  rcases join_cases names r as with ⟨before, a, after, rfl, ha, h⟩ | ⟨-, h⟩
  · rw [digestsOf_eq_nil_iff, List.forall_mem_append, List.forall_mem_cons] at hunlisted
    obtain ⟨hbefore, -, hafter⟩ := hunlisted
    have hlists : (a.including names).lists n = true := lists_including.mpr (.inr hn)
    rw [h, digestsOf_append, digestsOf_cons_of_lists hlists, rights_including, ha,
      digestsOf_eq_nil_iff.mpr hbefore, digestsOf_eq_nil_iff.mpr hafter, List.nil_append]
  · have hnew : (Aggregation.mk names r).lists n = true := lists_iff.mpr hn
    rw [h, digestsOf_append, hunlisted, digestsOf_cons_of_lists hnew, digestsOf_nil,
      List.nil_append]

end Aggregation

/-! ## Insertions -/

/-- What is done to a list of aggregations. -/
inductive Insertion
  /-- One name is moved, wherever it was before. -/
  | move (name : String) (rights : Snapshot)
  /-- Several names join.  A name that has a place keeps it as well. -/
  | join (names : NameSet) (rights : Snapshot)

namespace Insertion

open Aggregation

/-- The names that are inserted. -/
def names : Insertion → NameSet
  | move name _ => NameSet.ofList [name]
  | join names _ => names

/-- The rights under which they are inserted. -/
def rights : Insertion → Snapshot
  | move _ rights | join _ rights => rights

/-- The list after an insertion. -/
def apply (as : List Aggregation) : Insertion → List Aggregation
  | move name rights => Aggregation.move name rights as
  | join names rights => Aggregation.join names rights as

/-- The list that insertions leave behind. -/
def run (is : List Insertion) : List Aggregation := is.foldl apply []

/-- The last insertion that names a name. -/
def last? (is : List Insertion) (n : String) : Option Insertion :=
  (is.filter fun i => n ∈ i.names.toList).getLast?

/-- The list before the names join. -/
def vacate (as : List Aggregation) : Insertion → List Aggregation
  | move name _ => leave name as
  | join _ _ => as

variable {i : Insertion} {is : List Insertion} {as : List Aggregation} {n : String}

@[simp] theorem toList_names_move {name : String} {r : Snapshot} :
    (move name r).names.toList = [name] := rfl

@[simp] theorem names_join {names : NameSet} {r : Snapshot} : (join names r).names = names := rfl

theorem mem_names_move {name : String} {r : Snapshot} :
    n ∈ (move name r).names.toList ↔ n = name := by
  rw [toList_names_move, List.mem_singleton]

theorem apply_eq (as : List Aggregation) (i : Insertion) :
    apply as i = Aggregation.join i.names i.rights (i.vacate as) := by
  cases i <;> rfl

theorem run_concat (is : List Insertion) (i : Insertion) : run (is ++ [i]) = apply (run is) i := by
  unfold run
  rw [List.foldl_append]
  rfl

theorem last?_concat : last? (is ++ [i]) n = if n ∈ i.names.toList then some i else last? is n := by
  unfold last?
  rw [List.filter_append]
  by_cases hn : n ∈ i.names.toList
  · have hi : [i].filter (fun i => decide (n ∈ i.names.toList)) = [i] := by simp [hn]
    rw [hi, List.getLast?_concat, if_pos hn]
  · have hi : [i].filter (fun i => decide (n ∈ i.names.toList)) = [] := by simp [hn]
    rw [hi, List.append_nil, if_neg hn]

/-! ## Places and rights -/

theorem map_digest_eq (as : List Aggregation) :
    as.map (·.rights.digest) = (as.map (·.rights)).map Snapshot.digest := by
  rw [List.map_map]
  rfl

/-- An insertion leaves all aggregations at their places with their rights, and opens one at the end
if none has the digest of its rights. -/
theorem map_rights_apply (as : List Aggregation) (i : Insertion) :
    (apply as i).map (·.rights) =
      if i.rights.digest ∈ as.map (·.rights.digest) then as.map (·.rights)
      else as.map (·.rights) ++ [i.rights] := by
  have hvacate : (i.vacate as).map (·.rights) = as.map (·.rights) := by
    cases i with
    | move name r => exact map_rights_leave name as
    | join names r => rfl
  rw [apply_eq, map_rights_join, map_digest_eq, map_digest_eq, hvacate]

/-- Further insertions leave all aggregations at their places with their rights. -/
theorem map_rights_run_prefix (is more : List Insertion) :
    (run is).map (·.rights) <+: (run (is ++ more)).map (·.rights) := by
  induction more using List.reverseRecOn with
  | nil => simp
  | append_singleton more i ih =>
    rw [← List.append_assoc, run_concat, map_rights_apply]
    split
    · exact ih
    · exact ih.trans (List.prefix_append _ _)

/-- The digests of aggregations differ. -/
theorem nodup_map_digest_run (is : List Insertion) : ((run is).map (·.rights.digest)).Nodup := by
  induction is using List.reverseRecOn with
  | nil => exact List.nodup_nil
  | append_singleton is i ih =>
    rw [run_concat, map_digest_eq, map_rights_apply]
    split
    · rw [← map_digest_eq]
      exact ih
    next hnew =>
      rw [List.map_append, ← map_digest_eq, List.nodup_append]
      refine ⟨ih, List.nodup_singleton _, fun d hd e he => ?_⟩
      obtain rfl := List.mem_singleton.mp he
      exact ne_of_mem_of_not_mem hd hnew

/-- Erasing the repetitions of a list that is one element longer. -/
theorem eraseDups_concat {α : Type} [BEq α] [LawfulBEq α] [DecidableEq α] (l : List α) (a : α) :
    (l ++ [a]).eraseDups = if a ∈ l then l.eraseDups else l.eraseDups ++ [a] := by
  rw [List.eraseDups_append]
  unfold List.removeAll
  by_cases ha : a ∈ l
  · simp [ha]
  · simp [ha, List.eraseDups_cons]

/-- Aggregations are in the order in which their digests first appear. -/
theorem map_digest_run (is : List Insertion) :
    (run is).map (·.rights.digest) = (is.map (·.rights.digest)).eraseDups := by
  induction is using List.reverseRecOn with
  | nil => rfl
  | append_singleton is i ih =>
    have hmem : i.rights.digest ∈ (run is).map (·.rights.digest) ↔
        i.rights.digest ∈ is.map (·.rights.digest) := by
      rw [ih, List.mem_eraseDups]
    have hconcat := eraseDups_concat (is.map (·.rights.digest)) i.rights.digest
    rw [run_concat, map_digest_eq, map_rights_apply, List.map_append, List.map_singleton, hconcat,
      ← ih]
    by_cases hold : i.rights.digest ∈ is.map (·.rights.digest)
    · rw [if_pos (hmem.mpr hold), if_pos hold, ← map_digest_eq]
    · rw [if_neg (mt hmem.mp hold), if_neg hold, List.map_append, ← map_digest_eq]
      rfl

/-- The rights of an aggregation are those with which its digest first appears. -/
theorem find?_rights_run {r : Snapshot} (hr : r ∈ (run is).map (·.rights)) :
    (is.map (·.rights)).find? (·.sameRights r) = some r := by
  induction is using List.reverseRecOn with
  | nil => exact absurd hr List.not_mem_nil
  | append_singleton is i ih =>
    rw [run_concat, map_rights_apply] at hr
    rw [List.map_append, List.find?_append]
    split at hr
    · rw [ih hr, Option.some_or]
    next hnew =>
      -- The aggregation that is opened has the first rights with its digest.
      rcases List.mem_append.mp hr with hold | hlast
      · rw [ih hold, Option.some_or]
      · obtain rfl := List.mem_singleton.mp hlast
        have hnone : (is.map (·.rights)).find? (·.sameRights i.rights) = none := by
          rw [List.find?_eq_none]
          intro r hr hsame
          obtain ⟨j, hj, rfl⟩ := List.mem_map.mp hr
          rw [map_digest_run, List.mem_eraseDups] at hnew
          exact hnew (List.mem_map.mpr ⟨j, hj, Snapshot.sameRights_iff.mp hsame⟩)
        have hself : i.rights.sameRights i.rights = true := Snapshot.sameRights_iff.mpr rfl
        rw [hnone, Option.none_or, List.map_singleton, List.find?_singleton, if_pos hself]

/-! ## Names -/

theorem digestsOf_vacate_of_notMem (hn : n ∉ i.names.toList) :
    digestsOf n (i.vacate as) = digestsOf n as := by
  cases i with
  | move name r =>
    have hne : n ≠ name := fun h => hn (mem_names_move.mpr h)
    exact (digestsOf_leave n name as).trans (if_neg hne)
  | join names r => rfl

/-- A name that is not inserted is listed as before. -/
theorem digestsOf_apply_of_notMem (hn : n ∉ i.names.toList) :
    digestsOf n (apply as i) = digestsOf n as := by
  rw [apply_eq, digestsOf_join_of_notMem hn, digestsOf_vacate_of_notMem hn]

/-- A name that is inserted and stands nowhere else is listed once. -/
theorem digestsOf_apply_of_mem (hn : n ∈ i.names.toList)
    (hvacant : digestsOf n (i.vacate as) = []) : digestsOf n (apply as i) = [i.rights.digest] := by
  rw [apply_eq, digestsOf_join_of_unlisted hn hvacant]

/-- The names listed are those that were inserted. -/
theorem lists_run_iff :
    (∃ a ∈ run is, a.lists n = true) ↔ ∃ i ∈ is, n ∈ i.names.toList := by
  rw [exists_lists_iff]
  induction is using List.reverseRecOn with
  | nil => simp [run, digestsOf_nil]
  | append_singleton is i ih =>
    rw [run_concat]
    by_cases hn : n ∈ i.names.toList
    · -- However it was listed before, it is listed now under the digest of the insertion.
      have hlisted : i.rights.digest ∈ digestsOf n (apply (run is) i) := by
        rw [apply_eq, mem_digestsOf_join]
        exact .inr ⟨hn, rfl⟩
      exact ⟨fun _ => ⟨i, List.mem_append_right _ (List.mem_singleton_self i), hn⟩,
        fun _ => ⟨_, hlisted⟩⟩
    · rw [digestsOf_apply_of_notMem hn, ih]
      simp [or_and_right, exists_or, hn]

/-- No aggregation lists a name iff no insertion has named one. -/
theorem all_isEmpty_run_iff :
    (run is).all (·.isEmpty) = true ↔ ∀ i ∈ is, i.names.toList = [] := by
  have hlists (a : Aggregation) : a.isEmpty = true ↔ ∀ n, ¬ a.lists n = true := by
    simp only [lists_iff]
    unfold Aggregation.isEmpty Keyed.isEmpty
    rw [List.isEmpty_iff, List.eq_nil_iff_forall_not_mem]
  simp only [List.all_eq_true, hlists, List.eq_nil_iff_forall_not_mem]
  constructor
  · intro h i hi n hn
    obtain ⟨a, ha, hl⟩ := lists_run_iff.mpr ⟨i, hi, hn⟩
    exact h a ha n hl
  · intro h a ha n hl
    obtain ⟨i, hi, hn⟩ := lists_run_iff.mp ⟨a, ha, hl⟩
    exact h i hi n hn

/-- What a list of aggregations says about the insertions that have made it. -/
structure Recorded (is : List Insertion) (as : List Aggregation) : Prop where
  /-- Different aggregations have different digests. -/
  nodup : (as.map (·.rights.digest)).Nodup
  /-- Aggregations are in the order in which their digests first appear. -/
  order : as.map (·.rights.digest) = (is.map (·.rights.digest)).eraseDups
  /-- The rights of an aggregation are those with which its digest first appears. -/
  first : ∀ a ∈ as, (is.map (·.rights)).find? (·.sameRights a.rights) = some a.rights
  /-- The names listed are those that were inserted. -/
  names : ∀ n, (∃ a ∈ as, a.lists n = true) ↔ ∃ i ∈ is, n ∈ i.names.toList

theorem recorded_run (is : List Insertion) : Recorded is (run is) where
  nodup := nodup_map_digest_run is
  order := map_digest_run is
  first := fun _ ha => find?_rights_run (List.mem_map_of_mem ha)
  names := fun _ => lists_run_iff

/-- Every aggregation has the rights of some insertion. -/
theorem exists_rights_eq {a : Aggregation} (ha : a ∈ run is) : ∃ i ∈ is, i.rights = a.rights :=
  List.mem_map.mp (List.mem_of_find?_eq_some (find?_rights_run (List.mem_map_of_mem ha)))

/-- Two insertions may follow each other if the later one does not let a name join that the earlier
one has inserted. -/
def MayPrecede (i : Insertion) : Insertion → Prop
  | move _ _ => True
  | join names _ => ∀ n ∈ i.names.toList, n ∉ names.toList

instance : DecidableRel MayPrecede
  | _, move _ _ => .isTrue trivial
  | i, join names _ => inferInstanceAs (Decidable (∀ n ∈ i.names.toList, n ∉ names.toList))

/-- If only names join that were not inserted before, each name is listed once, under the digest of
its last insertion. -/
theorem digestsOf_run (h : is.Pairwise MayPrecede) (n : String) :
    digestsOf n (run is) = ((last? is n).map (·.rights.digest)).toList := by
  induction is using List.reverseRecOn with
  | nil => rfl
  | append_singleton is i ih =>
    obtain ⟨his, -, hfresh⟩ := List.pairwise_append.mp h
    rw [run_concat, last?_concat]
    by_cases hn : n ∈ i.names.toList
    · rw [if_pos hn]
      refine digestsOf_apply_of_mem hn ?_
      cases i with
      | move name r =>
        -- The name leaves the one aggregation that lists it.
        obtain rfl := mem_names_move.mp hn
        have hleave : digestsOf n (leave n (run is)) = (digestsOf n (run is)).tail :=
          (digestsOf_leave n n (run is)).trans (if_pos rfl)
        refine hleave.trans ?_
        rw [ih his]
        cases last? is n <;> rfl
      | join names r =>
        -- No aggregation lists the name, because no insertion before has named it.
        refine digestsOf_eq_nil_iff.mpr fun a ha => Bool.eq_false_iff.mpr fun hl => ?_
        obtain ⟨j, hj, hnj⟩ := lists_run_iff.mp ⟨a, ha, hl⟩
        exact hfresh j hj _ (List.mem_singleton_self _) n hnj hn
    · rw [if_neg hn, digestsOf_apply_of_notMem hn, ih his]

theorem placed_run (h : is.Pairwise MayPrecede) (n : String) :
    Placed n ((last? is n).map (·.rights)) (run is) := by
  apply placed_of_digestsOf_eq
  rw [digestsOf_run h, Option.map_map]
  rfl

end Insertion

end Delegation
