/-
# Joining at once and one by one

Names that have no place can join at once, which skips the search for the places that they leave.
The rights on the type come out the same as if the names had been placed one by one: the first of
them opens the aggregation if there is none, the others follow it, and a set of names does not
remember in which order they came.

## Key results

* `Aggregation.move_join` — a name that follows others joins them.
* `Aggregation.foldl_move_eq_join` — names that are moved one by one join at once.
* `TypeRights.joining_at_once_is_placing_one_by_one` — the same of the rights on a type, and what it
  changes if no names join.
-/
import Delegation.Proofs.TypeRights

namespace Delegation

namespace Aggregation

variable {a : Aggregation} {as : List Aggregation} {names : NameSet} {n : String} {r : Snapshot}
  {order : List String}

/-! ## Names that have no place -/

/-- A name that has no place leaves none. -/
theorem leave_of_unlisted (h : ∀ a ∈ as, a.lists n = false) : leave n as = as := by
  rcases leave_cases n as with ⟨before, a, after, rfl, -, ha, -⟩ | ⟨-, hleave⟩
  · rw [h a (List.mem_append_right _ List.mem_cons_self)] at ha
    cases ha
  · exact hleave

theorem including_without (a : Aggregation) (n : String) :
    (a.without n).including (.ofList [n]) = a.including (.ofList [n]) :=
  congrArg (Aggregation.mk · a.rights) (a.names.insert_erase n)

theorem including_including (a : Aggregation) (names : NameSet) (n : String) :
    (a.including names).including (.ofList [n]) = a.including (names.insert n) := by
  have hnames : (names.toList.foldl Keyed.insert a.names).insert n =
      (names.insert n).toList.foldl Keyed.insert a.names := by
    refine Keyed.ext_mem fun x => ?_
    rw [NameSet.mem_insert, NameSet.mem_foldl_insert, NameSet.mem_foldl_insert, NameSet.mem_insert,
      or_left_comm]
  exact congrArg (Aggregation.mk · a.rights) hnames

/-- A name that has no place but perhaps among names that have joined ends up among them. -/
theorem move_join (h : ∀ a ∈ as, a.lists n = false) :
    move n r (join names r as) = join (names.insert n) r as := by
  -- Wherever the others have joined, the name may be among them; it leaves and joins them again.
  have again (b : Aggregation) (bs : List Aggregation) (hb : b.hasRights r = true)
      (hbs : leave n bs = bs) : move n r (b :: bs) = b.including (.ofList [n]) :: bs := by
    have hwithout : (b.without n).hasRights r = true := hb
    unfold move leave
    split
    · rw [join, if_pos hwithout, including_without]
    · rw [join, if_pos hb, hbs]
  induction as with
  | nil =>
    have hself : (Aggregation.mk names r).hasRights r = true := hasRights_iff.mpr rfl
    exact again ⟨names, r⟩ [] hself rfl
  | cons a as ih =>
    obtain ⟨ha, has⟩ := List.forall_mem_cons.mp h
    rw [join, join]
    cases hr : a.hasRights r with
    | true =>
      have hincluding : (a.including names).hasRights r = true := hr
      rw [if_pos rfl, if_pos rfl, again _ _ hincluding (leave_of_unlisted has),
        including_including]
    | false =>
      rw [if_neg Bool.false_ne_true, if_neg Bool.false_ne_true, ← ih has]
      unfold move
      rw [leave, if_neg (Bool.eq_false_iff.mp ha), join, if_neg (Bool.eq_false_iff.mp hr)]

theorem foldl_move_join (h : ∀ n ∈ order, ∀ a ∈ as, a.lists n = false) :
    order.foldl (fun as n => move n r as) (join names r as) =
      join (order.foldl Keyed.insert names) r as := by
  induction order generalizing names with
  | nil => rfl
  | cons n order ih =>
    obtain ⟨hn, horder⟩ := List.forall_mem_cons.mp h
    rw [List.foldl_cons, List.foldl_cons, move_join hn, ih horder]

/-- Names that have no place are moved one by one to where they join at once. -/
theorem foldl_move_eq_join (hne : order ≠ []) (h : ∀ n ∈ order, ∀ a ∈ as, a.lists n = false) :
    order.foldl (fun as n => move n r as) as = join (.ofList order) r as := by
  obtain ⟨n, rest, rfl⟩ := List.exists_cons_of_ne_nil hne
  obtain ⟨hn, hrest⟩ := List.forall_mem_cons.mp h
  have hfirst : move n r as = join (.ofList [n]) r as := by
    unfold move
    rw [leave_of_unlisted hn]
  rw [List.foldl_cons, hfirst, foldl_move_join hrest]
  rfl

/-! ## No names -/

/-- If no names join, an aggregation without names is opened, unless one with the rights is there
already. -/
theorem join_empty (r : Snapshot) (as : List Aggregation) :
    join .empty r as = if as.any (·.hasRights r) then as else as ++ [⟨.empty, r⟩] := by
  induction as with
  | nil => rfl
  | cons a as ih =>
    rw [join, ih, List.any_cons]
    cases hr : a.hasRights r with
    | true => rfl
    | false =>
      cases as.any (·.hasRights r) <;> rfl

end Aggregation

namespace TypeRights

open Contribution

variable {t : TypeRights} {r : Snapshot}

/-- Entries that are placed one by one are moved among the entries, if they are given a right. -/
theorem foldl_addEntry (hr : r.hasNoRight = false) (order : List String) (t : TypeRights) :
    order.foldl (fun t n => t.addEntry n r) t =
      { t with entries := order.foldl (fun as n => Aggregation.move n r as) t.entries } := by
  induction order generalizing t with
  | nil => rfl
  | cons n order ih =>
    have hn : t.addEntry n r = { t with entries := Aggregation.move n r t.entries } :=
      if_neg (Bool.eq_false_iff.mp hr)
    rw [List.foldl_cons, List.foldl_cons, ih, hn]

theorem foldl_addEntry_of_hasNoRight (hr : r.hasNoRight = true) (order : List String)
    (t : TypeRights) : order.foldl (fun t n => t.addEntry n r) t = t := by
  induction order with
  | nil => rfl
  | cons n order ih =>
    have hn : t.addEntry n r = t := if_pos hr
    rw [List.foldl_cons, hn, ih]

/-- **Joining at once is placing one by one.**  Take names that no aggregation of entries lists.  If
there are some, and they join with the rights of a snapshot, then the rights on the type are the
same as if these names had been placed one by one, in any order and however often.  If there are
none, nothing changes, but that an aggregation without names is opened at the end when the snapshot
gives a right and no aggregation has its rights. -/
theorem joining_at_once_is_placing_one_by_one (t : TypeRights) (names : NameSet) (r : Snapshot)
    (h : ∀ n ∈ names.toList, ∀ a ∈ t.entries, a.lists n = false) :
    (names.isEmpty = false → ∀ order : List String, (∀ n, n ∈ order ↔ n ∈ names.toList) →
      order.foldl (fun t n => t.addEntry n r) t = t.addAggregation names r) ∧
    (names.isEmpty = true →
      t.addAggregation names r =
        if r.hasNoRight || t.entries.any (·.hasRights r) then t
        else { t with entries := t.entries ++ [⟨.empty, r⟩] }) := by
  constructor
  · intro hne order horder
    unfold addAggregation
    cases hr : r.hasNoRight with
    | true => exact foldl_addEntry_of_hasNoRight hr order t
    | false =>
      have hnames : NameSet.ofList order = names :=
        Keyed.ext_mem fun n => NameSet.mem_ofList.trans (horder n)
      have hordered : order ≠ [] := by
        rintro rfl
        rw [← hnames] at hne
        cases hne
      rw [foldl_addEntry hr, Aggregation.foldl_move_eq_join hordered
        fun n hn => h n ((horder n).mp hn), hnames]
      rfl
  · intro hempty
    have hnames : names = .empty := Keyed.ext (List.isEmpty_iff.mp hempty)
    unfold addAggregation
    rw [hnames, Aggregation.join_empty]
    cases r.hasNoRight with
    | true => rfl
    | false => cases t.entries.any (·.hasRights r) <;> rfl

/-- Two accounts enter an aggregation that another one has left, in either order or at once. -/
theorem deserted_aggregation_is_joined :
    let snapshot (right : String) : Snapshot :=
      (Snapshot.start .account .none "" "g" "g").build [.preset right]
    let now := (none .account).run [entry "ada" (snapshot "viewMail"),
      entry "ada" (snapshot "editMail")]
    let names := NameSet.ofList ["ben", "cy"]
    (∀ n ∈ names.toList, ∀ a ∈ now.entries, a.lists n = false) ∧ names.isEmpty = false ∧
      (now.addEntry "cy" (snapshot "viewMail")).addEntry "ben" (snapshot "viewMail") =
        now.addAggregation names (snapshot "viewMail") := by
  intro snapshot now names
  have hunlisted : ∀ n ∈ names.toList, ∀ a ∈ now.entries, a.lists n = false := by decide +kernel
  obtain ⟨hsame, -⟩ := joining_at_once_is_placing_one_by_one now names (snapshot "viewMail")
    hunlisted
  have horder (n : String) : n ∈ ["cy", "ben"] ↔ n ∈ names.toList := by
    rw [NameSet.mem_ofList]
    simp [or_comm]
  exact ⟨hunlisted, rfl, hsame rfl ["cy", "ben"] horder⟩

end TypeRights

end Delegation
