/-
# Lenient reading

What is read does not have to look as it was written.  A tree conveys a value if the members of each
object stand in any order, with members under other names among them and without some of those that
stand for the defaults of their fields.  Every tree that conveys a value is read as this value.  But
two members with the name of a field, or none where there is no default, are a flaw, and no tree
with a flaw is read at all.

## Key constructions

* `Schema.Conveys`, `Fields.Conveys`, `Cases.Conveys` — a tree conveys a value.
* `Schema.Flawed`, `Fields.Flawed`, `Cases.Flawed` — some object of the layout has a flaw.
* `Json.Reading.Names` — a tree selects the case with a name.
* `Schema.optional`, `Schema.MayLack` — the fields that may be missing from an object.

## Key results

* `Schema.ofReading_of_conveys` — what conveys a value is read as this value.
* `Schema.ofReading_of_flawed` — what has a flaw is not read.
* `Schema.mayLack_optional` — an object is read without a field iff this field has a default.
-/
import Delegation.Proofs.Json.Members
import Mathlib.Data.List.Forall2

namespace Delegation

open Json

/-! ## Trees that convey a value -/

mutual

/-- The tree conveys the value.  Objects may have their members in any order, and further ones under
names of no field. -/
def Schema.Conveys : {α : Type} → Schema α → α → Reading → Prop
  | _, .text, s, r => r = .text (some s)
  | _, .flag, b, r => r = .bool b
  | _, .octets _, bytes, r =>
    r = .array (.ofList (bytes.toList.map fun b => .number (.natural b.toNat)))
  | _, .code _ spell _, a, r => r = .text (some (spell a))
  | _, .maybe _, none, r => r = .null
  | _, .maybe content, some a, r => content.Conveys a r
  | _, .list item, as, r =>
    ∃ rs, r = .array (.ofList rs) ∧ List.Forall₂ (fun r a => item.Conveys a r) rs as
  | _, .record fields, a, r =>
    ∃ own others ms, r = .object (.ofList ms) ∧ ms.Perm (own ++ others) ∧ fields.Conveys a own ∧
      ∀ m ∈ others, m.1 ∉ fields.names
  | _, .choice cases, a, r => cases.Conveys a r
  | _, .view shown toView _ _, b, r => shown.Conveys (toView b) r

/-- The members convey the fields, in order.  A member may be missing if its field has a default and
holds it. -/
def Fields.Conveys : {α : Type} → Fields α → α → List (String × Reading) → Prop
  | _, .none, _, own => own = []
  | _, .field name content presence rest, (a, b), own =>
    presence.byName? = some a ∧ rest.Conveys b own ∨
      ∃ r own', own = (name, r) :: own' ∧ content.Conveys a r ∧ rest.Conveys b own'

/-- The tree conveys the case. -/
def Cases.Conveys : {α : Type} → Cases α → α → Reading → Prop
  | _, .plain name _, .inl _, r => r = .text (some name)
  | _, .carrying name content _, .inl a, r =>
    ∃ v, r = .object (.ofList [(name, v)]) ∧ content.Conveys a v
  | _, .plain _ rest, .inr b, r | _, .carrying _ _ rest, .inr b, r => rest.Conveys b r

end

/-! ## Trees with a flaw -/

mutual

/-- An object of the layout has a flaw.  Objects under other names do not count. -/
def Schema.Flawed : {α : Type} → Schema α → Reading → Prop
  | _, .maybe content, r => content.Flawed r
  | _, .list item, r => ∃ rs, r = .array (.ofList rs) ∧ ∃ v ∈ rs, item.Flawed v
  | _, .record fields, r => ∃ ms, r = .object (.ofList ms) ∧ fields.Flawed ms
  | _, .choice cases, r => ∃ key v, r = .object (.ofList [(key, v)]) ∧ cases.Flawed key v
  | _, .view shown _ _ _, r => shown.Flawed r
  | _, _, _ => False

/-- A field comes more than once, or is missing without having a default, or what stands under its
name has a flaw. -/
def Fields.Flawed : {α : Type} → Fields α → List (String × Reading) → Prop
  | _, .none, _ => False
  | _, .field name content presence rest, ms =>
    1 < (named name ms).length ∨ (named name ms = [] ∧ presence.byName? = none) ∨
      (∃ v ∈ named name ms, content.Flawed v) ∨ rest.Flawed ms

/-- What the case carries has a flaw. -/
def Cases.Flawed : {α : Type} → Cases α → String → Reading → Prop
  | _, .none, _, _ => False
  | _, .plain name rest, key, v => key ≠ name ∧ rest.Flawed key v
  | _, .carrying name content rest, key, v =>
    if key = name then content.Flawed v else rest.Flawed key v

end

/-! ## Null -/

mutual

/-- Only a schema that lays out the null value has values that are conveyed by it. -/
theorem Schema.ne_null_of_conveys : {α : Type} → (schema : Schema α) → {a : α} → {r : Reading} →
    schema.hasNull = false → schema.Conveys a r → r ≠ .null
  | _, .text, _, _, _, h => h ▸ Reading.noConfusion
  | _, .flag, _, _, _, h => h ▸ Reading.noConfusion
  | _, .octets _, _, _, _, h => h ▸ Reading.noConfusion
  | _, .code _ _ _, _, _, _, h => h ▸ Reading.noConfusion
  | _, .maybe _, _, _, hnull, _ => by cases hnull
  | _, .list _, _, _, _, h => by
    obtain ⟨_, rfl, -⟩ := h
    exact Reading.noConfusion
  | _, .record _, _, _, _, h => by
    obtain ⟨_, _, _, rfl, -⟩ := h
    exact Reading.noConfusion
  | _, .choice cases, _, _, _, h => cases.ne_null_of_conveys h
  | _, .view shown _ _ _, _, _, hnull, h => shown.ne_null_of_conveys hnull h

theorem Cases.ne_null_of_conveys : {α : Type} → (cases : Cases α) → {a : α} → {r : Reading} →
    cases.Conveys a r → r ≠ .null
  | _, .plain _ _, .inl _, _, h => h ▸ Reading.noConfusion
  | _, .carrying _ _ _, .inl _, _, h => by
    obtain ⟨_, rfl, -⟩ := h
    exact Reading.noConfusion
  | _, .plain _ rest, .inr _, _, h | _, .carrying _ _ rest, .inr _, _, h =>
    rest.ne_null_of_conveys h

end

/-- Null is no object, so it has no flaw. -/
theorem Schema.not_flawed_null : {α : Type} → (schema : Schema α) → ¬ schema.Flawed .null
  | _, .text, h | _, .flag, h | _, .octets _, h | _, .code _ _ _, h => h
  | _, .maybe content, h => content.not_flawed_null h
  | _, .list _, h | _, .record _, h => by
    obtain ⟨_, hnull, -⟩ := h
    cases hnull
  | _, .choice _, h => by
    obtain ⟨_, _, hnull, -⟩ := h
    cases hnull
  | _, .view shown _ _ _, h => shown.not_flawed_null h

/-- What is not null is read as a value that is there. -/
theorem Schema.ofReading_maybe {α : Type} {content : Schema α} {r : Reading} (h : r ≠ .null) :
    (Schema.maybe content).ofReading r = some <$> content.ofReading r := by
  cases r with
  | null => exact (h rfl).elim
  | _ => rfl

/-! ## Rows -/

namespace Json.Items

variable {α : Type} {value : Reading → Except Fault α} {r : Reading} {items : Items}
  {rs : List Reading} {a : α} {as : List α} {n : Nat}

/-- The values of a row are read one by one. -/
theorem values_ofList_iff :
    (Items.ofList rs).values value = .ok as ↔ List.Forall₂ (fun r a => value r = .ok a) rs as := by
  induction rs generalizing as with
  | nil => cases as <;> simp [ofList, values]
  | cons r rs ih =>
    refine Fault.bind_eq_ok_iff.trans ?_
    rw [List.forall₂_cons_left_iff]
    refine exists_congr fun a => ?_
    rw [exists_and_left]
    refine and_congr_right fun _ => Fault.bind_eq_ok_iff.trans (exists_congr fun as' => ?_)
    rw [ih]
    refine and_congr_right fun _ => ⟨fun h => ?_, fun h => ?_⟩
    · cases h
      rfl
    · rw [h]
      rfl

theorem forall_mem_of_values (h : (Items.ofList rs).values value = .ok as) :
    ∀ r ∈ rs, ∃ a, value r = .ok a := by
  rw [values_ofList_iff] at h
  induction h with
  | nil => exact fun r hr => absurd hr List.not_mem_nil
  | cons ha _ ih => exact List.forall_mem_cons.mpr ⟨⟨_, ha⟩, ih⟩

theorem row_item {hn : as.length = n} (hr : value r = .ok a)
    (hitems : items.row value n = .ok ⟨as, hn⟩) :
    (Items.item r items).row value (n + 1) = .ok ⟨a :: as, congrArg Nat.succ hn⟩ := by
  show (do
    let a ← value r
    let p ← items.row value n
    return ⟨a :: p.1, congrArg Nat.succ p.2⟩ :
      Except Fault { as : List α // as.length = n + 1 }) = _
  rw [hr, hitems]
  rfl

theorem row_ofList {write : α → Reading} (h : ∀ a ∈ as, value (write a) = .ok a)
    (hn : as.length = n) : (Items.ofList (as.map write)).row value n = .ok ⟨as, hn⟩ := by
  induction as generalizing n with
  | nil =>
    subst hn
    rfl
  | cons a as ih =>
    cases n with
    | zero => cases hn
    | succ n =>
      rw [List.forall_mem_cons] at h
      exact row_item h.1 (ih h.2 (Nat.succ.inj hn))

theorem intact_ofList : (Items.ofList rs).intact = true ↔ ∀ r ∈ rs, r.intact = true := by
  induction rs with
  | nil => simp [ofList, intact]
  | cons r rs ih => simp [ofList, intact, ih]

end Json.Items

/-- The bytes of a row are read from their numbers. -/
theorem Schema.ofReading_octets {n : Nat} (bytes : Vector UInt8 n) :
    (Schema.octets n).ofReading
      (.array (.ofList (bytes.toList.map fun b => .number (.natural b.toNat)))) = .ok bytes := by
  have hbyte : ∀ b ∈ bytes.toList, Reading.toByte (.number (.natural b.toNat)) = .ok b := by
    intro b _
    rw [Reading.toByte, if_pos b.toNat_lt, UInt8.ofNat_toNat]
  have hrow := Items.row_ofList hbyte bytes.length_toList
  show (do
    let p ← (Items.ofList (bytes.toList.map fun b : UInt8 => .number (.natural b.toNat))).row
      Reading.toByte n
    return (⟨p.1.toArray, by simpa using p.2⟩ : Vector UInt8 n)) = _
  rw [hrow]
  rfl

/-! ## Cases -/

/-- The reading selects the case with the name, by the name alone or by a member. -/
def Json.Reading.Names (r : Reading) (key : String) : Prop :=
  r = .text (some key) ∨ ∃ v, r = .object (.member (some key) v .closed)

theorem Json.Reading.select_member {α : Type} {named : String → Except Fault α}
    {carried : String → Reading → Except Fault α} (key : String) (v : Reading) :
    (Reading.object (.member (some key) v .closed)).select named carried = carried key v := by
  show carried key v >>= pure = carried key v
  exact bind_pure _

/-- What is selected under a name depends on what there is under this name alone. -/
theorem Json.Reading.select_map {α β : Type} {f : α → β} {r : Reading} {key : String}
    {named : String → Except Fault α} {carried : String → Reading → Except Fault α}
    {named' : String → Except Fault β} {carried' : String → Reading → Except Fault β}
    (h : r.Names key) (hnamed : named' key = f <$> named key)
    (hcarried : ∀ v, carried' key v = f <$> carried key v) :
    r.select named' carried' = f <$> r.select named carried := by
  obtain rfl | ⟨v, rfl⟩ := h
  · exact hnamed
  · rw [select_member, select_member, hcarried]

namespace Cases

theorem names_of_conveys : {α : Type} → (cases : Cases α) → {a : α} → {r : Reading} →
    cases.Conveys a r → ∃ key ∈ cases.names, r.Names key
  | _, .plain name _, .inl _, _, h => ⟨name, List.mem_cons_self, .inl h⟩
  | _, .carrying name _ _, .inl _, _, h => by
    obtain ⟨v, h, -⟩ := h
    exact ⟨name, List.mem_cons_self, .inr ⟨v, h⟩⟩
  | _, .plain _ rest, .inr _, _, h | _, .carrying _ _ rest, .inr _, _, h =>
    let ⟨key, hkey, hnames⟩ := rest.names_of_conveys h
    ⟨key, List.mem_cons_of_mem _ hkey, hnames⟩

/-- A case that comes later has another name, so the case in front of it does not matter. -/
theorem select_later {β γ : Type} {rest : Cases β} {cases : Cases (γ ⊕ β)} {name : String} {b : β}
    {r : Reading} (h : rest.Conveys b r) (hrest : r.select rest.ofName rest.ofMember = .ok b)
    (hname : name ∉ rest.names)
    (hofName : ∀ key, key ≠ name → cases.ofName key = .inr <$> rest.ofName key)
    (hofMember : ∀ key v, key ≠ name → cases.ofMember key v = .inr <$> rest.ofMember key v) :
    r.select cases.ofName cases.ofMember = .ok (.inr b) := by
  obtain ⟨key, hmem, hkey⟩ := rest.names_of_conveys h
  have hne : key ≠ name := fun h => hname (h ▸ hmem)
  rw [Reading.select_map hkey (hofName key hne) fun v => hofMember key v hne, hrest]
  rfl

end Cases

/-! ## What conveys a value -/

theorem Fields.name_mem_of_conveys : {α : Type} → (fields : Fields α) → {a : α} →
    {own : List (String × Reading)} → fields.Conveys a own → ∀ m ∈ own, m.1 ∈ fields.names
  | _, .none, _, _, h, m, hm => by
    cases h
    cases hm
  | _, .field name _ _ rest, (_, b), own, h, m, hm => by
    rw [names, List.mem_cons]
    rcases h with ⟨-, h⟩ | ⟨r, own', rfl, -, h⟩
    · exact .inr (rest.name_mem_of_conveys h m hm)
    · rcases List.mem_cons.mp hm with rfl | hm
      · exact .inl rfl
      · exact .inr (rest.name_mem_of_conveys h m hm)

mutual

/-- A value is read from every tree that conveys it, if what stands under other names is well
formed. -/
theorem Schema.ofReading_of_conveys : {α : Type} → (schema : Schema α) → schema.WellFormed →
    {a : α} → {r : Reading} → schema.Conveys a r → r.intact = true → schema.ofReading r = .ok a
  | _, .text, _, _, _, h, _ => h ▸ rfl
  | _, .flag, _, _, _, h, _ => h ▸ rfl
  | _, .octets _, _, bytes, _, h, _ => h ▸ Schema.ofReading_octets bytes
  | _, .code all spell found, _, a, _, h, _ => by
    subst h
    show decodeCode all spell (spell a) = .ok a
    rw [decodeCode, found]
  | _, .maybe _, _, none, _, h, _ => h ▸ rfl
  | _, .maybe content, hwf, some a, _, h, hintact => by
    obtain ⟨hnull, hwf⟩ := hwf
    rw [Schema.ofReading_maybe (content.ne_null_of_conveys hnull h),
      content.ofReading_of_conveys hwf h hintact]
    rfl
  | _, .list item, hwf, as, _, h, hintact => by
    obtain ⟨rs, rfl, has⟩ := h
    have hitems : ∀ r ∈ rs, r.intact = true := Items.intact_ofList.mp hintact
    have hconveys := (List.forall₂_and_left rs as).mpr ⟨hitems, has⟩
    exact Items.values_ofList_iff.mpr <|
      hconveys.imp fun r a h => item.ofReading_of_conveys hwf h.2 h.1
  | _, .record fields, hwf, a, _, h, hintact => by
    obtain ⟨hnames, hwf⟩ := hwf
    obtain ⟨own, others, ms, rfl, hperm, hown, hothers⟩ := h
    have hmembers : ∀ m ∈ ms, m.2.intact = true := Members.intact_ofList.mp hintact
    refine (fields.ofMembers_eq_ok_iff hnames ms a).mpr ⟨?_, fun m hm _ => hmembers m hm⟩
    have hholds := fields.holds_of_conveys hwf hnames hown fun m hm =>
      hmembers m (hperm.mem_iff.mpr (List.mem_append_left _ hm))
    exact hholds.of_own hperm hothers
  | _, .choice cases, hwf, a, _, h, hintact => by
    obtain ⟨hnames, hwf⟩ := hwf
    exact cases.select_of_conveys hwf hnames h hintact
  | _, .view shown toView ofView hview, hwf, b, _, h, hintact => by
    show ofView <$> shown.ofReading _ = .ok b
    rw [shown.ofReading_of_conveys hwf h hintact]
    exact congrArg Except.ok (hview b)

/-- The members of a record hold its fields. -/
theorem Fields.holds_of_conveys : {α : Type} → (fields : Fields α) → fields.WellFormed →
    fields.names.Nodup → {a : α} → {own : List (String × Reading)} → fields.Conveys a own →
    (∀ m ∈ own, m.2.intact = true) → fields.Holds own a
  | _, .none, _, _, _, _, _, _ => trivial
  | _, .field name content presence rest, hwf, hnames, (a, b), own, h, hintact => by
    obtain ⟨hcontent, hrest⟩ := hwf
    obtain ⟨hname, hnames⟩ := List.nodup_cons.mp hnames
    -- the members of the other fields have other names
    have hnone {own : List (String × Reading)} (h : rest.Conveys b own) : named name own = [] :=
      named_eq_nil_iff.mpr fun m hm heq => hname (heq ▸ rest.name_mem_of_conveys h m hm)
    rcases h with ⟨ha, h⟩ | ⟨r, own, rfl, ha, h⟩
    · exact ⟨.inl ⟨hnone h, ha⟩, rest.holds_of_conveys hrest hnames h hintact⟩
    · rw [List.forall_mem_cons] at hintact
      have hb := rest.holds_of_conveys hrest hnames h hintact.2
      have hne : ∀ key ∈ rest.names, name ≠ key := fun key hkey heq => hname (heq ▸ hkey)
      have hskip : ∀ key ∈ rest.names, named key ((name, r) :: own) = named key own :=
        fun key hkey => named_cons_of_ne (hne key hkey)
      refine ⟨.inr ⟨r, ?_, content.ofReading_of_conveys hcontent ha hintact.1⟩,
        (Fields.holds_congr hskip).mpr hb⟩
      rw [named_cons_self, hnone h]

/-- The tree of a case selects this case. -/
theorem Cases.select_of_conveys : {α : Type} → (cases : Cases α) → cases.WellFormed →
    cases.names.Nodup → {a : α} → {r : Reading} → cases.Conveys a r → r.intact = true →
    r.select cases.ofName cases.ofMember = .ok a
  | _, .plain name rest, _, _, .inl _, _, h, _ => by
    subst h
    show (Cases.plain name rest).ofName name = .ok (.inl ())
    rw [Cases.ofName, if_pos rfl]
  | _, .carrying name content rest, hwf, _, .inl a, _, h, hintact => by
    obtain ⟨v, rfl, ha⟩ := h
    have hv : v.intact = true := (Members.intact_ofList.mp hintact) _ List.mem_cons_self
    rw [Members.ofList, Members.ofList, Reading.select_member, Cases.ofMember, if_pos rfl,
      content.ofReading_of_conveys hwf.1 ha hv]
    rfl
  | _, .plain name rest, hwf, hnames, .inr b, _, h, hintact => by
    obtain ⟨hname, hnames⟩ := List.nodup_cons.mp hnames
    have hrest := rest.select_of_conveys hwf hnames h hintact
    refine Cases.select_later h hrest hname (fun key hne => ?_) fun key v hne => ?_
    · rw [Cases.ofName, if_neg hne]
    · rw [Cases.ofMember, if_neg hne]
  | _, .carrying name content rest, hwf, hnames, .inr b, _, h, hintact => by
    obtain ⟨hname, hnames⟩ := List.nodup_cons.mp hnames
    have hrest := rest.select_of_conveys hwf.2 hnames h hintact
    refine Cases.select_later h hrest hname (fun key hne => ?_) fun key v hne => ?_
    · rw [Cases.ofName, if_neg hne]
    · rw [Cases.ofMember, if_neg hne]

end

/-! ## What has a flaw -/

mutual

/-- Nothing is read from a tree that has a flaw. -/
theorem Schema.ofReading_of_flawed : {α : Type} → (schema : Schema α) → schema.WellFormed →
    {r : Reading} → schema.Flawed r → ∀ a, schema.ofReading r ≠ .ok a
  | _, .text, _, _, h, _ | _, .flag, _, _, h, _ | _, .octets _, _, _, h, _
  | _, .code _ _ _, _, _, h, _ => h.elim
  | _, .maybe content, hwf, r, h, _ => fun hok => by
    have hne : r ≠ .null := fun hnull => content.not_flawed_null (hnull ▸ h)
    rw [Schema.ofReading_maybe hne, Fault.map_eq_ok_iff] at hok
    obtain ⟨a, ha, -⟩ := hok
    exact content.ofReading_of_flawed hwf.2 h a ha
  | _, .list item, hwf, _, h, as => fun hok => by
    obtain ⟨rs, rfl, v, hv, h⟩ := h
    obtain ⟨a, ha⟩ := Items.forall_mem_of_values hok v hv
    exact item.ofReading_of_flawed hwf h a ha
  | _, .record fields, hwf, _, h, a => fun hok => by
    obtain ⟨ms, rfl, h⟩ := h
    obtain ⟨hholds, -⟩ := (fields.ofMembers_eq_ok_iff hwf.1 ms a).mp hok
    exact fields.not_holds_of_flawed hwf.2 h a hholds
  | _, .choice cases, hwf, _, h, a => fun hok => by
    obtain ⟨key, v, rfl, h⟩ := h
    have hmember : cases.ofMember key v = .ok a := (Reading.select_member key v).symm.trans hok
    exact cases.ofMember_of_flawed hwf.2 h a hmember
  | _, .view shown _ _ _, hwf, r, h, b => fun hok => by
    obtain ⟨a, ha, -⟩ := Fault.map_eq_ok_iff.mp hok
    exact shown.ofReading_of_flawed hwf h a ha

/-- Members with a flaw hold no record. -/
theorem Fields.not_holds_of_flawed : {α : Type} → (fields : Fields α) → fields.WellFormed →
    {ms : List (String × Reading)} → fields.Flawed ms → ∀ a, ¬ fields.Holds ms a
  | _, .none, _, _, h, _ => h.elim
  | _, .field name content presence rest, hwf, ms, h, (a, b) => by
    rintro ⟨ha, hb⟩
    rcases h with hmany | ⟨hnone, hdefault⟩ | ⟨v, hv, h⟩ | h
    · rcases ha with ⟨hnone, -⟩ | ⟨r, hone, -⟩
      · simp [hnone] at hmany
      · simp [hone] at hmany
    · rcases ha with ⟨-, ha⟩ | ⟨r, hone, -⟩
      · rw [hdefault] at ha
        cases ha
      · rw [hnone] at hone
        cases hone
    · rcases ha with ⟨hnone, -⟩ | ⟨r, hone, ha⟩
      · rw [hnone] at hv
        cases hv
      · rw [hone, List.mem_singleton] at hv
        exact content.ofReading_of_flawed hwf.1 h a (hv ▸ ha)
    · exact rest.not_holds_of_flawed hwf.2 h b hb

theorem Cases.ofMember_of_flawed : {α : Type} → (cases : Cases α) → cases.WellFormed →
    {key : String} → {v : Reading} → cases.Flawed key v → ∀ a, cases.ofMember key v ≠ .ok a
  | _, .none, _, _, _, h, _ => h.elim
  | _, .plain name rest, hwf, key, v, h, a => fun hok => by
    rw [Cases.ofMember, if_neg h.1, Fault.map_eq_ok_iff] at hok
    obtain ⟨b, hb, -⟩ := hok
    exact rest.ofMember_of_flawed hwf h.2 b hb
  | _, .carrying name content rest, hwf, key, v, h, a => fun hok => by
    rw [Cases.Flawed] at h
    rw [Cases.ofMember] at hok
    split at h
    next hkey =>
      rw [if_pos hkey, Fault.map_eq_ok_iff] at hok
      obtain ⟨a, ha, -⟩ := hok
      exact content.ofReading_of_flawed hwf.1 h a ha
    next hkey =>
      rw [if_neg hkey, Fault.map_eq_ok_iff] at hok
      obtain ⟨b, hb, -⟩ := hok
      exact rest.ofMember_of_flawed hwf.2 h b hb

end

/-! ## What may be missing -/

namespace Fields

/-- The names of the fields that have a default. -/
def optional : {α : Type} → Fields α → List String
  | _, .none => []
  | _, .field name _ presence rest =>
    if presence.byName?.isSome then name :: rest.optional else rest.optional

theorem optional_sublist : {α : Type} → (fields : Fields α) → fields.optional.Sublist fields.names
  | _, .none => .slnil
  | _, .field _ _ presence rest => by
    unfold optional
    split
    · exact .cons_cons _ rest.optional_sublist
    · exact .cons _ rest.optional_sublist

section

variable {α β : Type} {name key : String} {content : Schema α} {presence : Presence α}
  {rest : Fields β}

theorem self_mem_optional_iff (h : name ∉ rest.names) :
    name ∈ (field name content presence rest).optional ↔ ∃ a, presence.byName? = some a := by
  have hrest : name ∉ rest.optional := fun hmem => h (rest.optional_sublist.subset hmem)
  rw [optional, ← Option.isSome_iff_exists]
  split <;> simp [*]

theorem mem_optional_of_ne (h : key ≠ name) :
    key ∈ (field name content presence rest).optional ↔ key ∈ rest.optional := by
  rw [optional]
  split <;> simp [h]

end

/-- From members that hold a record a field may be taken away iff it has a default. -/
theorem holds_without_iff : {α : Type} → (fields : Fields α) → fields.names.Nodup →
    {ms : List (String × Reading)} → {a : α} → fields.Holds ms a → {key : String} →
    key ∈ fields.names → ((∃ b, fields.Holds (ms.filter (·.1 ≠ key)) b) ↔ key ∈ fields.optional)
  | _, .field name content presence rest, hnames, ms, (a, b), h, key, hkey => by
    obtain ⟨hname, hnames⟩ := List.nodup_cons.mp hnames
    obtain ⟨ha, hb⟩ := h
    by_cases heq : key = name
    · -- the field itself is taken away, and the others are held as before
      subst heq
      have hnone : named key (ms.filter (·.1 ≠ key)) = [] :=
        named_eq_nil_iff.mpr fun m hm => of_decide_eq_true (List.mem_filter.mp hm).2
      have hne : ∀ other ∈ rest.names, other ≠ key := fun other hmem h => hname (h ▸ hmem)
      have hrest : rest.Holds (ms.filter (·.1 ≠ key)) b :=
        (holds_congr fun other hmem => named_filter_ne (hne other hmem)).mpr hb
      rw [self_mem_optional_iff hname]
      constructor
      · rintro ⟨⟨a', _⟩, ⟨-, ha'⟩ | ⟨r, hone, -⟩, -⟩
        · exact ⟨a', ha'⟩
        · cases hnone.symm.trans hone
      · rintro ⟨a', ha'⟩
        exact ⟨(a', b), .inl ⟨hnone, ha'⟩, hrest⟩
    · -- a later field is taken away, and this one stays
      have hkey : key ∈ rest.names := (List.mem_cons.mp hkey).resolve_left heq
      have hsame : named name (ms.filter (·.1 ≠ key)) = named name ms :=
        named_filter_ne (Ne.symm heq)
      rw [mem_optional_of_ne heq, ← rest.holds_without_iff hnames hb hkey]
      constructor
      · rintro ⟨⟨_, b'⟩, -, hb'⟩
        exact ⟨b', hb'⟩
      · rintro ⟨b', hb'⟩
        exact ⟨(a, b'), hsame ▸ ha, hb'⟩

end Fields

namespace Schema

/-- The names of the fields of an object. -/
def names : {α : Type} → Schema α → List String
  | _, .record fields => fields.names
  | _, .view shown _ _ _ => shown.names
  | _, _ => []

/-- The names of the fields that an object need not have. -/
def optional : {α : Type} → Schema α → List String
  | _, .record fields => fields.optional
  | _, .view shown _ _ _ => shown.optional
  | _, _ => []

/-- Of the fields of an object, these may be missing and no others: when one is taken away from an
object that is read, the object is still read iff the field is one of these. -/
structure MayLack {α : Type} (schema : Schema α) (optional : List String) : Prop where
  fields : optional.Sublist schema.names
  read_iff : ∀ ms a, schema.ofReading (.object (.ofList ms)) = .ok a → ∀ key ∈ schema.names,
    (∃ b, schema.ofReading (.object (.ofList (ms.filter (·.1 ≠ key)))) = .ok b) ↔ key ∈ optional

/-- The fields that may be missing are those that have a default. -/
theorem mayLack_optional : {α : Type} → (schema : Schema α) → schema.WellFormed →
    schema.MayLack schema.optional
  | _, .record fields, hwf => by
    refine ⟨fields.optional_sublist, fun ms a h key hkey => ?_⟩
    obtain ⟨hholds, hintact⟩ := (fields.ofMembers_eq_ok_iff hwf.1 ms a).mp h
    refine Iff.trans (exists_congr fun b => ?_) (fields.holds_without_iff hwf.1 hholds hkey)
    refine (fields.ofMembers_eq_ok_iff hwf.1 _ b).trans (and_iff_left fun m hm => ?_)
    exact hintact m (List.mem_of_mem_filter hm)
  | _, .view shown _ ofView _, hwf => by
    obtain ⟨hfields, hread⟩ := shown.mayLack_optional hwf
    refine ⟨hfields, fun ms b h key hkey => ?_⟩
    obtain ⟨a, ha, -⟩ := Fault.map_eq_ok_iff.mp h
    refine Iff.trans ?_ (hread ms a ha key hkey)
    constructor
    · rintro ⟨_, h⟩
      obtain ⟨a, ha, -⟩ := Fault.map_eq_ok_iff.mp h
      exact ⟨a, ha⟩
    · rintro ⟨a, ha⟩
      exact ⟨ofView a, Fault.map_eq_ok_iff.mpr ⟨a, ha, rfl⟩⟩
  | _, .text, _ | _, .flag, _ | _, .octets _, _ | _, .code _ _ _, _ | _, .maybe _, _
  | _, .list _, _ | _, .choice _, _ => ⟨.slnil, fun _ _ _ _ hkey => nomatch hkey⟩

end Schema

end Delegation
