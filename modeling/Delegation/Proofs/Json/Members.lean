/-
# Records from members in any order

A record is read member by member, and each member fills the place of the field with its name.  So
the order of the members does not matter, and whether a record can be read, and what it is, depends
on nothing but the values under the name of each field.  A member whose name is no field only has to
be well formed.

## Key constructions

* `Json.named` — the values under a name.
* `Fields.Settles` — what the values under the name of a field make of its place.
* `Fields.Holds` — the fields of a record, each from the values under its name.

## Key results

* `Fields.walk_eq_ok_iff` — a walk over members is a walk for the first field and one for the rest.
* `Fields.ofMembers_eq_ok_iff` — the records that are read from members.
-/
import Delegation.Codec.Json.Form
import Mathlib.Data.List.Perm.Basic

namespace Delegation

namespace Json

variable {name key : String} {r : Reading} {ms ms' : List (String × Reading)}

/-- The values under a name, in order. -/
def named (name : String) (ms : List (String × Reading)) : List Reading :=
  ms.filterMap fun m => if m.1 = name then some m.2 else none

@[simp] theorem named_nil : named name [] = [] := rfl

@[simp] theorem named_cons_self : named name ((name, r) :: ms) = r :: named name ms := by
  simp [named]

@[simp] theorem named_cons_of_ne (h : key ≠ name) :
    named name ((key, r) :: ms) = named name ms := by
  simp [named, h]

@[simp] theorem named_append : named name (ms ++ ms') = named name ms ++ named name ms' :=
  List.filterMap_append

theorem named_eq_nil_iff : named name ms = [] ↔ ∀ m ∈ ms, m.1 ≠ name := by
  simp [named]

theorem named_perm (h : ms.Perm ms') : (named name ms).Perm (named name ms') := h.filterMap _

/-- Members with another name do not count. -/
theorem named_filter_ne (h : key ≠ name) :
    named key (ms.filter (·.1 ≠ name)) = named key ms := by
  rw [named, List.filterMap_filter]
  refine List.filterMap_congr fun m _ => ?_
  by_cases hm : m.1 = key
  · simp [hm, h]
  · simp [hm]

theorem Members.intact_ofList :
    (Members.ofList ms).intact = true ↔ ∀ m ∈ ms, m.2.intact = true := by
  induction ms with
  | nil => simp [ofList, intact]
  | cons m ms ih => simp [ofList, intact, ih]

end Json

open Json

/-- Decoding that goes on with a value comes to an end iff both parts do. -/
theorem Fault.bind_eq_ok_iff {α β : Type} {x : Except Fault α} {f : α → Except Fault β} {b : β} :
    x >>= f = .ok b ↔ ∃ a, x = .ok a ∧ f a = .ok b := by
  cases x <;> simp [bind, Except.bind]

theorem Fault.map_eq_ok_iff {α β : Type} {x : Except Fault α} {f : α → β} {b : β} :
    f <$> x = .ok b ↔ ∃ a, x = .ok a ∧ f a = b := by
  cases x <;> simp [Functor.map, Except.map]

namespace Fields

section Walk

variable {α β : Type} {name key : String} {content : Schema α} {presence : Presence α}
  {rest : Fields β} {r : Reading} {ms : List (String × Reading)}

theorem fill_filled (a : α) (slots : rest.Slots) (r : Reading) :
    (field name content presence rest).fill ((some a, slots) : Option α × rest.Slots) name r =
      .error (.duplicateField name) := if_pos rfl

theorem fill_vacant (slots : rest.Slots) (r : Reading) :
    (field name content presence rest).fill ((Option.none, slots) : Option α × rest.Slots) name r =
      (fun a => ((some a, slots) : Option α × rest.Slots)) <$> content.ofReading r := if_pos rfl

theorem fill_of_ne (h : key ≠ name) (slot : Option α) (slots : rest.Slots) (r : Reading) :
    (field name content presence rest).fill ((slot, slots) : Option α × rest.Slots) key r =
      (fun slots => ((slot, slots) : Option α × rest.Slots)) <$> rest.fill slots key r := if_neg h

/-- A member with the name of a field needs an empty place. -/
theorem fill_self_eq_ok_iff {slot slot' : Option α} {slots slots' : rest.Slots} :
    (field name content presence rest).fill (slot, slots) name r =
        .ok ((slot', slots') : Option α × rest.Slots) ↔
      slot = Option.none ∧ slots' = slots ∧ ∃ a, content.ofReading r = .ok a ∧ slot' = some a := by
  cases slot with
  | some a =>
    refine iff_of_false (fun h => ?_) fun h => nomatch h.1
    cases (fill_filled a slots r).symm.trans h
  | none =>
    rw [fill_vacant]
    refine Fault.map_eq_ok_iff.trans ?_
    simp only [Prod.mk.injEq, true_and]
    constructor
    · rintro ⟨a, ha, rfl, rfl⟩
      exact ⟨rfl, a, ha, rfl⟩
    · rintro ⟨rfl, a, ha, rfl⟩
      exact ⟨a, ha, rfl, rfl⟩

/-- A member with another name leaves the place of a field as it is. -/
theorem fill_of_ne_eq_ok_iff (h : key ≠ name) {slot slot' : Option α} {slots slots' : rest.Slots} :
    (field name content presence rest).fill (slot, slots) key r =
        .ok ((slot', slots') : Option α × rest.Slots) ↔
      slot' = slot ∧ rest.fill slots key r = .ok slots' := by
  rw [fill_of_ne h]
  refine Fault.map_eq_ok_iff.trans ?_
  simp only [Prod.mk.injEq]
  constructor
  · rintro ⟨_, hslots, rfl, rfl⟩
    exact ⟨rfl, hslots⟩
  · rintro ⟨rfl, hslots⟩
    exact ⟨_, hslots, rfl, rfl⟩

/-- What the values under the name of a field make of its place: one value may come to an empty
place, and none to a place that is filled. -/
def Settles (content : Schema α) : Option α → List Reading → Option α → Prop
  | slot, [], slot' => slot' = slot
  | Option.none, r :: rs, slot' =>
    ∃ a, content.ofReading r = .ok a ∧ Settles content (some a) rs slot'
  | some _, _ :: _, _ => False

/-- A walk over members fills the place of the first field with what stands under its name, and the
other places with what does not. -/
theorem walk_eq_ok_iff {slot slot' : Option α} {slots slots' : rest.Slots} :
    (Members.ofList ms).walk (field name content presence rest).fill (slot, slots) =
        .ok ((slot', slots') : Option α × rest.Slots) ↔
      Settles content slot (named name ms) slot' ∧
        (Members.ofList (ms.filter (·.1 ≠ name))).walk rest.fill slots = .ok slots' := by
  -- the places are arbitrary, since members in front may have filled them
  induction ms generalizing slot slots with
  | nil =>
    simp only [named_nil, Settles, List.filter_nil, Members.ofList, Members.walk]
    constructor
    · intro h
      cases h
      exact ⟨rfl, rfl⟩
    · rintro ⟨rfl, h⟩
      cases h
      rfl
  | cons m ms ih =>
    obtain ⟨key, r⟩ := m
    refine Fault.bind_eq_ok_iff.trans ?_
    by_cases hkey : key = name
    · subst hkey
      rw [named_cons_self, List.filter_cons_of_neg (by simp)]
      constructor
      · rintro ⟨⟨slot₁, slots₁⟩, hfill, hwalk⟩
        obtain ⟨rfl, rfl, a, ha, rfl⟩ := fill_self_eq_ok_iff.mp hfill
        obtain ⟨hslot, hslots⟩ := ih.mp hwalk
        exact ⟨⟨a, ha, hslot⟩, hslots⟩
      · rintro ⟨hsettles, hslots⟩
        cases slot with
        | some _ => exact hsettles.elim
        | none =>
          obtain ⟨a, ha, hslot⟩ := hsettles
          exact ⟨(some a, slots), fill_self_eq_ok_iff.mpr ⟨rfl, rfl, a, ha, rfl⟩,
            ih.mpr ⟨hslot, hslots⟩⟩
    · rw [named_cons_of_ne hkey, List.filter_cons_of_pos (by simpa using hkey)]
      refine Iff.trans ?_ (and_congr_right fun _ => Fault.bind_eq_ok_iff.symm)
      constructor
      · rintro ⟨⟨slot₁, slots₁⟩, hfill, hwalk⟩
        obtain ⟨rfl, hrest⟩ := (fill_of_ne_eq_ok_iff hkey).mp hfill
        obtain ⟨hslot, hslots⟩ := ih.mp hwalk
        exact ⟨hslot, slots₁, hrest, hslots⟩
      · rintro ⟨hslot, slots₁, hfill, hslots⟩
        exact ⟨(slot, slots₁), (fill_of_ne_eq_ok_iff hkey).mpr ⟨rfl, hfill⟩,
          ih.mpr ⟨hslot, hslots⟩⟩

/-- What one value, or none, makes of an empty place, and what the field is then. -/
theorem exists_settles_iff (content : Schema α) {rs : List Reading} {a : α} :
    (∃ slot, Settles content Option.none rs slot ∧ (slot <|> presence.byName?) = some a) ↔
      rs = [] ∧ presence.byName? = some a ∨ ∃ r, rs = [r] ∧ content.ofReading r = .ok a := by
  match rs with
  | [] => simp [Settles]
  | [r] => simp [Settles]
  | r :: r' :: rs => simp [Settles]

/-- A record is made from its places one by one. -/
theorem finish_eq_ok_iff {slot : Option α} {slots : rest.Slots} {a : α} {b : β} :
    (field name content presence rest).finish (slot, slots) = .ok (a, b) ↔
      (slot <|> presence.byName?) = some a ∧ rest.finish slots = .ok b := by
  rw [finish]
  cases slot <|> presence.byName? with
  | none => simp
  | some a' =>
    simp only [Fault.map_eq_ok_iff, Option.some.injEq, Prod.mk.injEq]
    constructor
    · rintro ⟨_, hb, rfl, rfl⟩
      exact ⟨rfl, hb⟩
    · rintro ⟨rfl, hb⟩
      exact ⟨b, hb, rfl, rfl⟩

end Walk

/-- Each field has the one value under its name, or its default if there is none. -/
def Holds : {α : Type} → Fields α → List (String × Reading) → α → Prop
  | _, .none, _, _ => True
  | _, .field name content presence rest, ms, (a, b) =>
    (named name ms = [] ∧ presence.byName? = some a ∨
      ∃ r, named name ms = [r] ∧ content.ofReading r = .ok a) ∧ rest.Holds ms b

/-- Nothing but the values under the names of the fields counts, and their order does not. -/
theorem Holds.of_perm : {α : Type} → {fields : Fields α} → {ms ms' : List (String × Reading)} →
    {a : α} → (∀ name ∈ fields.names, (named name ms).Perm (named name ms')) →
    fields.Holds ms a → fields.Holds ms' a
  | _, .none, _, _, _, _, _ => trivial
  | _, .field name content presence rest, ms, ms', (a, b), hperm, h => by
    obtain ⟨ha, hb⟩ := h
    rw [names, List.forall_mem_cons] at hperm
    refine ⟨?_, Holds.of_perm hperm.2 hb⟩
    rcases ha with ⟨hnone, ha⟩ | ⟨r, hone, ha⟩
    · rw [hnone, List.nil_perm] at hperm
      exact .inl ⟨hperm.1, ha⟩
    · rw [hone, List.singleton_perm] at hperm
      exact .inr ⟨r, hperm.1.symm, ha⟩

/-- Members that have none of the names do not count. -/
theorem holds_congr {α : Type} {fields : Fields α} {ms ms' : List (String × Reading)} {a : α}
    (h : ∀ name ∈ fields.names, named name ms = named name ms') :
    fields.Holds ms a ↔ fields.Holds ms' a :=
  ⟨.of_perm fun name hname => h name hname ▸ .rfl, .of_perm fun name hname => h name hname ▸ .rfl⟩

/-- Members that hold a record do so in any order, and with others among them. -/
theorem Holds.of_own {α : Type} {fields : Fields α} {own others ms : List (String × Reading)}
    {a : α} (h : fields.Holds own a) (hperm : ms.Perm (own ++ others))
    (hothers : ∀ m ∈ others, m.1 ∉ fields.names) : fields.Holds ms a := by
  refine .of_perm (fun name hname => ?_) h
  have hnone : named name others = [] :=
    named_eq_nil_iff.mpr fun m hm heq => hothers m hm (heq ▸ hname)
  have hnamed : (named name (own ++ others)).Perm (named name ms) := named_perm hperm.symm
  rwa [named_append, hnone, List.append_nil] at hnamed

theorem walk_none_eq_ok_iff {ms : List (String × Reading)} :
    (Members.ofList ms).walk Fields.none.fill () = .ok () ↔ ∀ m ∈ ms, m.2.intact = true := by
  induction ms with
  | nil => simp [Members.ofList, Members.walk]
  | cons m ms ih =>
    refine Fault.bind_eq_ok_iff.trans ?_
    rw [List.forall_mem_cons, ← ih]
    have hskip : Fields.none.fill () m.1 m.2 = .ok () ↔ m.2.intact = true := by
      show (do m.2.skip; return () : Except Fault Unit) = .ok () ↔ _
      rw [Fault.bind_eq_ok_iff]
      unfold Reading.skip
      cases m.2.intact <;> simp [pure, Except.pure]
    constructor
    · rintro ⟨⟨⟩, hm, hms⟩
      exact ⟨hskip.mp hm, hms⟩
    · rintro ⟨hm, hms⟩
      exact ⟨(), hskip.mpr hm, hms⟩

/-- The records that are read from members: those with a value for each field, if whatever stands
under other names is well formed. -/
theorem ofMembers_eq_ok_iff : {α : Type} → (fields : Fields α) → fields.names.Nodup →
    (ms : List (String × Reading)) → (a : α) →
    ((do
      let slots ← (Members.ofList ms).walk fields.fill fields.vacant
      fields.finish slots : Except Fault α) = .ok a ↔
      fields.Holds ms a ∧ ∀ m ∈ ms, m.1 ∉ fields.names → m.2.intact = true)
  | _, .none, _, ms, () => by
    have hwalk : (∀ m ∈ ms, m.1 ∉ Fields.none.names → m.2.intact = true) ↔
        (Members.ofList ms).walk Fields.none.fill () = .ok () := by
      simp [walk_none_eq_ok_iff, names]
    rw [Holds, true_and, hwalk]
    refine Fault.bind_eq_ok_iff.trans ⟨fun ⟨_, h, _⟩ => h, fun h => ⟨(), h, rfl⟩⟩
  | _, .field name content presence rest, hnames, ms, (a, b) => by
    obtain ⟨hname, hnames⟩ := List.nodup_cons.mp hnames
    have hne : ∀ key ∈ rest.names, key ≠ name := fun key hkey h => hname (h ▸ hkey)
    -- the other fields see the members with other names only, which makes no difference to them
    have hrest := rest.ofMembers_eq_ok_iff hnames (ms.filter (·.1 ≠ name)) b
    rw [Fault.bind_eq_ok_iff, holds_congr fun key hkey => named_filter_ne (hne key hkey)] at hrest
    have hothers : (∀ m ∈ ms.filter (·.1 ≠ name), m.1 ∉ rest.names → m.2.intact = true) ↔
        ∀ m ∈ ms, m.1 ∉ name :: rest.names → m.2.intact = true := by
      simp only [List.mem_filter, List.mem_cons, not_or, decide_eq_true_eq, and_imp]
    rw [Holds, names, ← hothers, and_assoc, ← hrest, ← exists_settles_iff content]
    refine Fault.bind_eq_ok_iff.trans ?_
    constructor
    · rintro ⟨⟨slot, slots⟩, hwalk, hfinish⟩
      obtain ⟨hslot, hslots⟩ := walk_eq_ok_iff.mp hwalk
      obtain ⟨ha, hb⟩ := finish_eq_ok_iff.mp hfinish
      exact ⟨⟨slot, hslot, ha⟩, slots, hslots, hb⟩
    · rintro ⟨⟨slot, hslot, ha⟩, slots, hslots, hb⟩
      exact ⟨(slot, slots), walk_eq_ok_iff.mpr ⟨hslot, hslots⟩, finish_eq_ok_iff.mpr ⟨ha, hb⟩⟩

end Fields

end Delegation
