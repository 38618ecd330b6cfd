/-
# Contributions to the rights on a type

What can be added to the rights on one target type are rights on every entry, insertions among the
entries, and insertions among the domains.  The three do not touch each other, so a run of
contributions leaves behind what each of the three parts of the run leaves behind.

## Key constructions

* `Contribution.toAll?`, `Contribution.toEntries?`, `Contribution.toDomains?` — what a contribution
  adds to each part, if it gives a right.
* `Contribution.records` — the contribution gives a right on something.
* `TypeRights.run`, `TypeRights.accepted` — one contribution after the other, and those that are not
  refused.
* `TypeRights.Records` — what the rights on a type say about the run that has led to them.
* `Aggregation.Placed` — where a name is listed.

## Key results

* `TypeRights.run_eq` — a run, part by part.
* `TypeRights.accepted_eq` — the contributions that are refused are those to domains of a type
  without domains.
* `run_records_contributions` — what the rights on a type say after any run.
* `names_are_placed_once` — where names are listed after a run that keeps the precondition of
  aggregations.
-/
import Delegation.Proofs.Insertion

namespace Delegation

namespace Contribution

/-! ## The parts of a contribution -/

/-- The rights on every entry that a contribution gives, unless these are none. -/
def toAll? (c : Contribution) : Option Snapshot :=
  if c.rights.hasNoRight then none
  else match c with
    | all rights => some rights
    | _ => none

/-- The insertion among the entries that a contribution makes, unless it gives no right. -/
def toEntries? (c : Contribution) : Option Insertion :=
  if c.rights.hasNoRight then none
  else match c with
    | entry name rights => some (.move name rights)
    | aggregation names rights => some (.join names rights)
    | _ => none

/-- The insertion among the domains that a contribution makes, unless it gives no right. -/
def toDomains? (c : Contribution) : Option Insertion :=
  if c.rights.hasNoRight then none
  else match c with
    | domain name rights => some (.move name rights)
    | _ => none

/-- Whether the contribution gives a right, and names something on which it gives it. -/
def records (c : Contribution) : Bool :=
  !c.rights.hasNoRight && match c with
    | aggregation names _ => !names.isEmpty
    | _ => true

variable {c : Contribution} {i : Insertion} {r : Snapshot}

theorem hasNoRight_of_toAll? (h : c.toAll? = some r) : r.hasNoRight = false := by
  unfold toAll? at h
  split at h
  · cases h
  next hr =>
    cases c with
    | all =>
      cases h
      exact Bool.eq_false_iff.mpr hr
    | entry | aggregation | domain => cases h

theorem hasNoRight_of_toEntries? (h : c.toEntries? = some i) : i.rights.hasNoRight = false := by
  unfold toEntries? at h
  split at h
  · cases h
  next hr =>
    cases c with
    | entry | aggregation =>
      cases h
      exact Bool.eq_false_iff.mpr hr
    | all | domain => cases h

/-- Domains are only ever moved. -/
theorem move_of_toDomains? (h : c.toDomains? = some i) :
    ∃ name r, i = .move name r ∧ r.hasNoRight = false := by
  unfold toDomains? at h
  split at h
  · cases h
  next hr =>
    cases c with
    | domain name r =>
      cases h
      exact ⟨name, r, rfl, Bool.eq_false_iff.mpr hr⟩
    | all | entry | aggregation => cases h

/-- A contribution that records nothing gives no rights on every entry, and names nothing that it
inserts. -/
theorem records_eq_false_iff :
    c.records = false ↔ c.toAll? = none ∧ (∀ i ∈ c.toEntries?, i.names.toList = []) ∧
      ∀ i ∈ c.toDomains?, i.names.toList = [] := by
  unfold records toAll? toEntries? toDomains?
  cases hr : c.rights.hasNoRight with
  | true => simp
  | false => cases c <;> simp [Keyed.isEmpty]

end Contribution

namespace TypeRights

open Contribution

/-! ## One contribution -/

/-- Whether a contribution is not refused. -/
def accepts (t : TypeRights) (c : Contribution) : Bool :=
  match t.add c with
  | .ok _ => true
  | .error _ => false

variable {t : TypeRights} {c : Contribution} {cs : List Contribution}

/-- A contribution that gives no right changes nothing. -/
theorem add_of_hasNoRight (h : c.rights.hasNoRight = true) : t.add c = .ok t := by
  cases c with
  | all | entry | aggregation => exact congrArg Except.ok (if_pos h)
  | domain => exact if_pos h

/-- What a contribution does to each part. -/
theorem attempt_eq (t : TypeRights) (c : Contribution) :
    t.attempt c =
      { type := t.type
        all := c.toAll?.or t.all
        entries := c.toEntries?.toList.foldl Insertion.apply t.entries
        domains := t.domains.map (c.toDomains?.toList.foldl Insertion.apply) } := by
  obtain ⟨type, all, entries, domains⟩ := t
  unfold attempt toAll? toEntries? toDomains?
  cases hr : c.rights.hasNoRight with
  | true =>
    rw [add_of_hasNoRight hr]
    cases domains <;> rfl
  | false =>
    cases c with
    | all r =>
      have hr : r.hasNoRight = false := hr
      cases domains <;> simp [add, setAll, hr]
    | entry name r =>
      have hr : r.hasNoRight = false := hr
      cases domains <;> simp [add, addEntry, Insertion.apply, hr]
    | aggregation names r =>
      have hr : r.hasNoRight = false := hr
      cases domains <;> simp [add, addAggregation, Insertion.apply, hr]
    | domain name r =>
      have hr : r.hasNoRight = false := hr
      cases domains <;> simp [add, addDomain, Insertion.apply, hr]

/-- A contribution is refused iff it gives a right on a domain of a type without domains. -/
theorem accepts_eq (t : TypeRights) (c : Contribution) :
    t.accepts c = (t.domains.isSome || c.toDomains?.isNone) := by
  obtain ⟨type, all, entries, domains⟩ := t
  unfold accepts toDomains?
  cases c with
  | all | entry | aggregation => cases domains <;> simp [add]
  | domain name r => cases hr : r.hasNoRight <;> cases domains <;> simp [add, addDomain, rights, hr]

theorem attempt_of_not_accepts (h : ¬ t.accepts c = true) : t.attempt c = t := by
  unfold accepts at h
  unfold attempt
  cases hadd : t.add c with
  | ok t' =>
    rw [hadd] at h
    exact absurd rfl h
  | error e => rfl

theorem isSome_domains_attempt : (t.attempt c).domains.isSome = t.domains.isSome := by
  rw [attempt_eq, Option.isSome_map]

/-! ## Runs -/

/-- The rights after some contributions. -/
def run (t : TypeRights) (cs : List Contribution) : TypeRights := cs.foldl attempt t

/-- Those of some contributions that are not refused. -/
def accepted : TypeRights → List Contribution → List Contribution
  | _, [] => []
  | t, c :: cs => if t.accepts c then c :: (t.attempt c).accepted cs else (t.attempt c).accepted cs

theorem run_concat (t : TypeRights) (cs : List Contribution) (c : Contribution) :
    t.run (cs ++ [c]) = (t.run cs).attempt c := by
  unfold run
  rw [List.foldl_append]
  rfl

/-- What the last contribution adds to a part comes last. -/
theorem filterMap_concat {α : Type} (f : Contribution → Option α) (cs : List Contribution)
    (c : Contribution) : (cs ++ [c]).filterMap f = cs.filterMap f ++ (f c).toList := by
  rw [List.filterMap_append]
  cases h : f c <;> simp [h]

/-- What contributions do to each part. -/
theorem run_eq (t : TypeRights) (cs : List Contribution) :
    t.run cs =
      { type := t.type
        all := (cs.filterMap toAll?).getLast?.or t.all
        entries := (cs.filterMap toEntries?).foldl Insertion.apply t.entries
        domains := t.domains.map ((cs.filterMap toDomains?).foldl Insertion.apply) } := by
  -- From the end, because the rights on every entry are those that were set last.
  induction cs using List.reverseRecOn with
  | nil => cases hd : t.domains <;> simp [run, ← hd]
  | append_singleton cs c ih =>
    rw [run_concat, attempt_eq, ih, filterMap_concat, filterMap_concat, filterMap_concat,
      List.foldl_append, List.getLast?_append, Option.map_map, Option.or_assoc]
    congr 2
    · cases c.toAll? <;> rfl
    · funext ds
      exact List.foldl_append.symm

/-- What is refused does not depend on what was added before. -/
theorem accepted_eq (t : TypeRights) (cs : List Contribution) :
    t.accepted cs = cs.filter t.accepts := by
  induction cs generalizing t with
  | nil => rfl
  | cons c cs ih =>
    -- A contribution neither adds domains to a type without them nor takes them away.
    have hsame : (t.attempt c).accepts = t.accepts := by
      funext c'
      rw [accepts_eq, accepts_eq, isSome_domains_attempt]
    unfold accepted
    rw [ih, hsame, List.filter_cons]

/-- What is refused changes nothing. -/
theorem run_accepted (t : TypeRights) (cs : List Contribution) :
    t.run (t.accepted cs) = t.run cs := by
  induction cs generalizing t with
  | nil => rfl
  | cons c cs ih =>
    unfold accepted
    split
    · exact ih (t.attempt c)
    next hrefused =>
      change t.run ((t.attempt c).accepted cs) = (t.attempt c).run cs
      rw [← ih (t.attempt c), attempt_of_not_accepts hrefused]

/-! ## What a run leaves behind -/

variable {type : TargetType}

theorem entries_run_none (type : TargetType) (cs : List Contribution) :
    ((none type).run cs).entries = Insertion.run (cs.filterMap toEntries?) := by
  rw [run_eq]
  rfl

theorem all_run_none (type : TargetType) (cs : List Contribution) :
    ((none type).run cs).all = (cs.filterMap toAll?).getLast? := by
  rw [run_eq]
  exact Option.or_none

theorem domains_run_none (type : TargetType) (cs : List Contribution) :
    ((none type).run cs).domains =
      if type.isDomained then some (Insertion.run (cs.filterMap toDomains?)) else .none := by
  rw [run_eq]
  unfold none
  split <;> rfl

/-- The domains of a type without domains are refused, and those of the others are not. -/
theorem getD_domains_run_none (type : TargetType) (cs : List Contribution) :
    ((none type).run cs).domains.getD [] =
      Insertion.run (((none type).accepted cs).filterMap toDomains?) := by
  rw [← run_accepted, domains_run_none]
  cases hd : type.isDomained with
  | true => rfl
  | false =>
    -- What is not refused moves no domain.
    have hnone : ((none type).accepted cs).filterMap toDomains? = [] := by
      rw [List.filterMap_eq_nil_iff]
      intro c hc
      rw [accepted_eq, List.mem_filter, accepts_eq] at hc
      simpa [none, hd] using hc.2
    rw [hnone]
    rfl

/-- What the rights on a type say about the contributions that have led to them. -/
structure Records (type : TargetType) (cs : List Contribution) (now : TypeRights) : Prop where
  /-- The rights on every entry are those that were set last. -/
  all : now.all = (cs.filterMap toAll?).getLast?
  entries : Insertion.Recorded (cs.filterMap toEntries?) now.entries
  /-- Domains are kept apart iff entries of the type live in domains. -/
  domained : now.domains.isSome = type.isDomained
  domains :
    Insertion.Recorded (((none type).accepted cs).filterMap toDomains?) (now.domains.getD [])
  /-- Whatever is recorded gives a right. -/
  all_gives : ∀ r, now.all = some r → r.hasNoRight = false
  aggregations_give : ∀ a ∈ now.aggregations, a.rights.hasNoRight = false
  /-- Whatever is added later, aggregations keep their places and their rights. -/
  entries_keep : ∀ more, now.entries.map (·.rights) <+:
    ((none type).run (cs ++ more)).entries.map (·.rights)
  domains_keep : ∀ more, (now.domains.getD []).map (·.rights) <+:
    (((none type).run (cs ++ more)).domains.getD []).map (·.rights)
  /-- Nothing is recorded iff no contribution that was not refused has recorded anything. -/
  isEmpty_iff : now.isEmpty = true ↔ ∀ c ∈ (none type).accepted cs, c.records = false

/-- Every aggregation gives a right. -/
theorem hasNoRight_of_mem_run {f : Contribution → Option Insertion}
    (hf : ∀ c i, f c = some i → i.rights.hasNoRight = false) {a : Aggregation}
    (ha : a ∈ Insertion.run (cs.filterMap f)) : a.rights.hasNoRight = false := by
  obtain ⟨i, hi, hrights⟩ := Insertion.exists_rights_eq ha
  obtain ⟨c, -, hc⟩ := List.mem_filterMap.mp hi
  rw [← hrights]
  exact hf c i hc

theorem isEmpty_run_none_iff :
    ((none type).run cs).isEmpty = true ↔ ∀ c ∈ (none type).accepted cs, c.records = false := by
  have hentries : ((none type).run cs).entries =
      Insertion.run (((none type).accepted cs).filterMap toEntries?) := by
    rw [← run_accepted, entries_run_none]
  have hall : ((none type).run cs).all = (((none type).accepted cs).filterMap toAll?).getLast? := by
    rw [← run_accepted, all_run_none]
  unfold isEmpty aggregations
  rw [hall, hentries, getD_domains_run_none, List.all_append, Bool.and_eq_true, Bool.and_eq_true,
    Insertion.all_isEmpty_run_iff, Insertion.all_isEmpty_run_iff, Option.isNone_iff_eq_none,
    List.getLast?_eq_none_iff, List.filterMap_eq_nil_iff]
  constructor
  · rintro ⟨hall, hentries, hdomains⟩ c hc
    exact records_eq_false_iff.mpr ⟨hall c hc,
      fun i hi => hentries i (List.mem_filterMap.mpr ⟨c, hc, hi⟩),
      fun i hi => hdomains i (List.mem_filterMap.mpr ⟨c, hc, hi⟩)⟩
  · intro h
    refine ⟨fun c hc => (records_eq_false_iff.mp (h c hc)).1, fun i hi => ?_, fun i hi => ?_⟩
    · obtain ⟨c, hc, hi⟩ := List.mem_filterMap.mp hi
      exact (records_eq_false_iff.mp (h c hc)).2.1 i hi
    · obtain ⟨c, hc, hi⟩ := List.mem_filterMap.mp hi
      exact (records_eq_false_iff.mp (h c hc)).2.2 i hi

/-- **What is recorded.**  Whatever is contributed to a type without rights, names that have a place
joining once more included, the rights on the type record it. -/
theorem run_records_contributions (type : TargetType) (cs : List Contribution) :
    Records type cs ((none type).run cs) where
  all := all_run_none type cs
  entries := by
    rw [entries_run_none]
    exact Insertion.recorded_run _
  domained := by
    rw [domains_run_none]
    cases type.isDomained <;> rfl
  domains := by
    rw [getD_domains_run_none]
    exact Insertion.recorded_run _
  all_gives := by
    intro r hr
    rw [all_run_none] at hr
    obtain ⟨c, -, hc⟩ := List.mem_filterMap.mp (List.mem_of_getLast? hr)
    exact hasNoRight_of_toAll? hc
  aggregations_give := by
    intro a ha
    unfold aggregations at ha
    rw [entries_run_none, getD_domains_run_none] at ha
    rcases List.mem_append.mp ha with hentry | hdomain
    · exact hasNoRight_of_mem_run (fun _ _ => hasNoRight_of_toEntries?) hentry
    · refine hasNoRight_of_mem_run (fun _ _ h => ?_) hdomain
      obtain ⟨name, r, rfl, hr⟩ := move_of_toDomains? h
      exact hr
  entries_keep := by
    intro more
    rw [entries_run_none, entries_run_none, List.filterMap_append]
    exact Insertion.map_rights_run_prefix _ _
  domains_keep := by
    intro more
    have haccepted : (none type).accepted (cs ++ more) =
        (none type).accepted cs ++ (none type).accepted more := by
      rw [accepted_eq, accepted_eq, accepted_eq, List.filter_append]
    rw [getD_domains_run_none, getD_domains_run_none, haccepted, List.filterMap_append]
    exact Insertion.map_rights_run_prefix _ _
  isEmpty_iff := isEmpty_run_none_iff

/-- **Where names are listed.**  Take a run in which no aggregation names an entry that a
contribution before has inserted.  Then every name is listed by one aggregation of entries, under
the digest of the last contribution that has inserted it, or it was not inserted and is listed by
none.  The same holds of domains, whatever the run. -/
theorem names_are_placed_once (type : TargetType) (cs : List Contribution) :
    ((cs.filterMap toEntries?).Pairwise Insertion.MayPrecede → ∀ n,
      Aggregation.Placed n ((Insertion.last? (cs.filterMap toEntries?) n).map (·.rights))
        ((none type).run cs).entries) ∧
    (type.isDomained = true → ∃ ds, ((none type).run cs).domains = some ds ∧ ∀ n,
      Aggregation.Placed n ((Insertion.last? (cs.filterMap toDomains?) n).map (·.rights)) ds) := by
  constructor
  · intro hfresh n
    rw [entries_run_none]
    exact Insertion.placed_run hfresh n
  · intro hdomained
    refine ⟨_, (domains_run_none type cs).trans (if_pos hdomained), fun n => ?_⟩
    -- No precondition is needed here, because a move may follow whatever was inserted before.
    have hmoves : (cs.filterMap toDomains?).Pairwise Insertion.MayPrecede := by
      refine List.pairwise_filterMap.mpr (List.pairwise_of_forall ?_)
      intro c c' i hi j hj
      obtain ⟨name, r, rfl, -⟩ := move_of_toDomains? hj
      exact trivial
    exact Insertion.placed_run hmoves n

/-- An account leaves its aggregation, which another account then enters; domains are listed
apart. -/
theorem last_contribution_places_name :
    let snapshot (right : String) : Snapshot :=
      (Snapshot.start .account .none "" "g" "g").build [.preset right]
    let cs := [
      entry "ada" (snapshot "viewMail"),
      aggregation (.ofList ["ben", "cy"]) (snapshot "editMail"),
      entry "ada" (snapshot "editMail"),
      entry "ben" (snapshot "viewMail"),
      domain "ada" (snapshot "viewMail")]
    let now := (none .account).run cs
    Aggregation.Placed "ada" (some (snapshot "editMail")) now.entries ∧
      Aggregation.Placed "ben" (some (snapshot "viewMail")) now.entries ∧
      Aggregation.Placed "dee" .none now.entries ∧
      ∃ ds, now.domains = some ds ∧ Aggregation.Placed "ada" (some (snapshot "viewMail")) ds := by
  intro snapshot cs now
  have hplaced := names_are_placed_once .account cs
  have hentries := hplaced.1 (by decide +kernel)
  obtain ⟨ds, hds, hdomains⟩ := hplaced.2 rfl
  exact ⟨hentries "ada", hentries "ben", hentries "dee", ds, hds, hdomains "ada"⟩

end TypeRights

end Delegation
