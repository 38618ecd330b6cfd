/-
# CBOR undoes itself

What is written for a value is read back, whatever bytes follow.  Every value starts with a head
that tells what it is, so a missing value is told from a present one by looking at the head; and a
record starts with the number of its entries, each of which fills one place.

## Key constructions

* `Schema.head` — the head in front of a value.
* `Fields.toEntries` — the entries of the map that a record is.
* `Fields.Fills`, `Cases.ReadsCase` — what one entry and one case contribute.

## Key results

* `Schema.reads_writeCbor` — a value is read from what is written for it.
* `Schema.ofCbor_toCbor` — a value is read back from its bytes, with any bytes after them.
* `Schema.eq_of_toCbor_prefix` — no value is written in front of the bytes of another one.
-/
import Delegation.Proofs.Cbor.Extent
import Delegation.Proofs.Cbor.Reads
import Delegation.Proofs.Record

namespace Delegation

open Cbor

/-! ## Heads -/

mutual

/-- The head in front of a value. -/
def Schema.head : {α : Type} → Schema α → α → Head
  | _, .text, s => .text (some (Utf8.encode s).length)
  | _, .flag, b => .simple (if b then 21 else 20)
  | _, .octets n, _ => .array (some n)
  | _, .code _ spell _, a => .text (some (Utf8.encode (spell a)).length)
  | _, .maybe _, none => .simple 22
  | _, .maybe content, some a => content.head a
  | _, .list _, as => .array (some as.length)
  | _, .record fields, a => .map (some (fields.countWritten a))
  | _, .choice cases, a => cases.head a
  | _, .view shown toView _ _, b => shown.head (toView b)

/-- The head in front of a case. -/
def Cases.head : {α : Type} → Cases α → α → Head
  | _, .plain name _, .inl _ => .text (some (Utf8.encode name).length)
  | _, .carrying _ _ _, .inl _ => .map (some 1)
  | _, .plain _ rest, .inr b | _, .carrying _ _ rest, .inr b => rest.head b

end

theorem Schema.length_spell_le {α : Type} {all : List α} {spell : α → String}
    {found : ∀ a, all.find? (fun b => spell b = spell a) = some a}
    (h : (Schema.code all spell found).Bounded) (a : α) :
    (Utf8.encode (spell a)).length ≤ window := h a (List.mem_of_find?_eq_some (found a))

theorem Fields.countWritten_le : {α : Type} → (fields : Fields α) → (a : α) →
    fields.countWritten a ≤ fields.names.length
  | _, .none, _ => Nat.le_refl 0
  | _, .field _ _ presence rest, (a, b) => by
    have hrest := rest.countWritten_le b
    rw [countWritten, names, List.length_cons]
    split <;> omega

mutual

/-- What is written for a value starts with its head. -/
theorem Schema.leads_writeCbor : {α : Type} → (schema : Schema α) → schema.Bounded → (a : α) →
    schema.Fits a → Leads (schema.head a) (schema.writeCbor a)
  | _, .text, _, s, ha => leads_textBytes ha
  | _, .flag, _, true, _ => .of_reads (reads_simple (n := 21) (by decide)) []
  | _, .flag, _, false, _ => .of_reads (reads_simple (n := 20) (by decide)) []
  | _, .octets n, h, _, _ => .of_reads (reads_arrayHead h) _
  | _, .code _ spell _, h, a, _ =>
    leads_textBytes (shortName_of_le_window (Schema.length_spell_le h a))
  | _, .maybe _, _, none, _ => .of_reads (reads_simple (n := 22) (by decide)) []
  | _, .maybe content, h, some a, ha => content.leads_writeCbor h a ha
  | _, .list _, _, _, ha => .of_reads (reads_arrayHead ha.1) _
  | _, .record fields, h, a, _ =>
    .of_reads (reads_mapHead (Nat.lt_of_le_of_lt (fields.countWritten_le a) h.1)) _
  | _, .choice cases, h, a, _ => cases.leads_writeCbor h a
  | _, .view shown toView _ _, h, b, hb => shown.leads_writeCbor h (toView b) hb

/-- What is written for a case starts with its head. -/
theorem Cases.leads_writeCbor : {α : Type} → (cases : Cases α) → cases.Bounded → (a : α) →
    Leads (cases.head a) (cases.writeCbor a)
  | _, .plain _ _, h, .inl _ => leads_textBytes (shortName_of_le_window h.1)
  | _, .carrying _ _ _, _, .inl _ => by
    rw [Cases.writeCbor, List.append_assoc]
    exact .of_reads (reads_mapHead (by decide)) _
  | _, .plain _ rest, h, .inr b => rest.leads_writeCbor h.2 b
  | _, .carrying _ _ rest, h, .inr b => rest.leads_writeCbor h.2.2 b

end

mutual

/-- Only a schema that lays out the null value has a head that stands for it. -/
theorem Schema.head_ne_null : {α : Type} → (schema : Schema α) → (a : α) →
    schema.hasNull = false → schema.head a ≠ .simple 22 ∧ schema.head a ≠ .simple 23
  | _, .text, _, _ => ⟨Head.noConfusion, Head.noConfusion⟩
  | _, .flag, b, _ => by cases b <;> decide
  | _, .octets _, _, _ => ⟨Head.noConfusion, Head.noConfusion⟩
  | _, .code _ _ _, _, _ => ⟨Head.noConfusion, Head.noConfusion⟩
  | _, .maybe _, _, h => by cases h
  | _, .list _, _, _ => ⟨Head.noConfusion, Head.noConfusion⟩
  | _, .record _, _, _ => ⟨Head.noConfusion, Head.noConfusion⟩
  | _, .choice cases, a, _ => cases.head_ne_null a
  | _, .view shown toView _ _, b, h => shown.head_ne_null (toView b) h

theorem Cases.head_ne_null : {α : Type} → (cases : Cases α) → (a : α) →
    cases.head a ≠ .simple 22 ∧ cases.head a ≠ .simple 23
  | _, .plain _ _, .inl _ => ⟨Head.noConfusion, Head.noConfusion⟩
  | _, .carrying _ _ _, .inl _ => ⟨Head.noConfusion, Head.noConfusion⟩
  | _, .plain _ rest, .inr b | _, .carrying _ _ rest, .inr b => rest.head_ne_null b

end

/-! ## Fields -/

namespace Fields

/-- The entries of the fields that are not left out. -/
def toEntries {α : Type} (fields : Fields α) (a : α) : List (String × List UInt8) :=
  fields.written Schema.writeCbor a

/-- The bytes of an entry of a map. -/
def entryBytes (e : String × List UInt8) : List UInt8 := textBytes e.1 ++ e.2

theorem writeCbor_eq : {α : Type} → (fields : Fields α) → (a : α) →
    fields.writeCbor a = ((fields.toEntries a).map entryBytes).flatten
  | _, .none, _ => rfl
  | _, .field name content presence rest, (a, b) => by
    rw [writeCbor, toEntries, written]
    split
    · exact rest.writeCbor_eq b
    · rw [List.map_cons, List.flatten_cons, rest.writeCbor_eq b, entryBytes, toEntries]

/-- The number in front of a record counts its entries. -/
theorem countWritten_eq : {α : Type} → (fields : Fields α) → (a : α) →
    fields.countWritten a = (fields.toEntries a).length
  | _, .none, _ => rfl
  | _, .field _ _ presence rest, (a, b) => by
    rw [countWritten, toEntries, written, rest.countWritten_eq b]
    split
    · exact Nat.zero_add _
    · exact Nat.add_comm _ _

theorem length_name_le : {α : Type} → (fields : Fields α) → fields.Bounded →
    ∀ name ∈ fields.names, (Utf8.encode name).length ≤ window
  | _, .none, _, _, h => absurd h List.not_mem_nil
  | _, .field _ _ _ rest, h, key, hkey => by
    rw [names, List.mem_cons] at hkey
    rcases hkey with rfl | hkey
    · exact h.1
    · exact rest.length_name_le h.2.2 key hkey

/-- The value of an entry fills one of the places. -/
def Fills {α : Type} (fields : Fields α) (levels : Nat) (slots : fields.Slots)
    (e : String × List UInt8) (filled : fields.Slots) : Prop :=
  Reads (fields.fillCbor levels slots (Utf8.encode e.1)) e.2 filled

variable {α β : Type} {name key : String} {content : Schema α} {presence : Presence α}
  {rest : Fields β} {levels : Nat} {a : α} {bytes : List UInt8}

theorem fillCbor_field (slot : Option α) (slots : rest.Slots) (key : List UInt8) :
    (field name content presence rest).fillCbor levels (slot, slots) key =
      if key = Utf8.encode name then
        match slot with
        | some _ => throw (.duplicateField name)
        | Option.none => (fun a => (some a, slots)) <$> content.readCbor levels
      else (fun slots => (slot, slots)) <$> rest.fillCbor levels slots key := rfl

/-- The entry with the name of a field fills the place of this field. -/
theorem fills_name (h : Reads (content.readCbor levels) bytes a) (slots : rest.Slots) :
    (field name content presence rest).Fills levels (Option.none, slots) (name, bytes)
      (some a, slots) := by
  unfold Fills
  rw [fillCbor_field, if_pos rfl]
  exact h.map fun a => (some a, slots)

/-- An entry with another name leaves the place of a field as it is. -/
theorem Fills.of_ne {e : String × List UInt8} {slots filled : rest.Slots}
    (h : rest.Fills levels slots e filled) (hne : e.1 ≠ name) (slot : Option α) :
    (field name content presence rest).Fills levels (slot, slots) e (slot, filled) := by
  have hkey : Utf8.encode e.1 ≠ Utf8.encode name := fun h => hne (Utf8.encode_injective h)
  unfold Fills
  rw [fillCbor_field, if_neg hkey]
  exact Reads.map (fun slots => (slot, slots)) h

/-- Entries that fill the places one after the other are read as the rows of a map. -/
theorem reads_rows {fields : Fields α} {slots filled : fields.Slots}
    {entries : List (String × List UInt8)} (h : Steps (fields.Fills levels) slots entries filled)
    (hnames : ∀ e ∈ entries, (Utf8.encode e.1).length ≤ window) :
    Reads (rows (fun slots => do fields.fillCbor levels slots (← readName))
      (some entries.length) slots) (entries.map entryBytes).flatten filled := by
  have hsteps : Steps (ReadsBlock fun slots => do fields.fillCbor levels slots (← readName))
      slots (entries.map entryBytes) filled := by
    refine h.map (f := id) fun slots e he filled hfills => ⟨?_, ?_⟩
    · have hlead := leads_textBytes (shortName_of_le_window (hnames e he))
      exact List.append_ne_nil_of_left_ne_nil hlead.ne_nil e.2
    · exact (reads_readName (hnames e he)).bind hfills
  have hrows := hsteps.rows
  rwa [List.length_map] at hrows

end Fields

/-! ## Cases -/

namespace Cases

/-- The bytes are those from which the name of a case is read, and behind them those of what the
case carries. -/
def ReadsCase {α : Type} (cases : Cases α) (levels : Nat) (bytes : List UInt8) (a : α) : Prop :=
  ∃ key ∈ cases.names, ∃ front back, bytes = front ++ back ∧
    (∀ levels, 0 < levels → Reads (readCaseName levels) front (Utf8.encode key)) ∧
    Reads (cases.readCbor levels (Utf8.encode key)) back a

/-- A case that comes later has another name, so the case in front of it does not matter. -/
theorem ReadsCase.later {β γ : Type} {rest : Cases β} {cases : Cases (γ ⊕ β)} {name : String}
    {levels : Nat} {bytes : List UInt8} {b : β} (h : rest.ReadsCase levels bytes b)
    (hname : name ∉ rest.names) (hnames : cases.names = name :: rest.names)
    (hread : ∀ key, key ≠ Utf8.encode name →
      cases.readCbor levels key = .inr <$> rest.readCbor levels key) :
    cases.ReadsCase levels bytes (.inr b) := by
  obtain ⟨key, hmem, front, back, hbytes, hkey, hcase⟩ := h
  have hne : Utf8.encode key ≠ Utf8.encode name := fun heq =>
    hname (Utf8.encode_injective heq ▸ hmem)
  refine ⟨key, hnames ▸ List.mem_cons_of_mem _ hmem, front, back, hbytes, hkey, ?_⟩
  rw [hread _ hne]
  exact hcase.map Sum.inr

end Cases

/-! ## Values -/

namespace Schema

variable {α : Type} {content : Schema α} {head : Head} {bytes : List UInt8} {levels : Nat} {a : α}

theorem reads_octets {n : Nat} (h : (octets n).Bounded) (row : Vector UInt8 n) :
    Reads ((octets n).readCbor (levels + 1)) ((octets n).writeCbor row) row := by
  refine ((reads_arrayHead h).wanted (by simp)).bind ?_
  dsimp only
  rw [if_pos rfl]
  refine (reads_readRow (fun b _ => reads_readByte b) row.length_toList).bind_nil ?_
  exact reads_pure row

theorem reads_code {all : List α} {spell : α → String}
    {found : ∀ a, all.find? (fun b => spell b = spell a) = some a}
    (h : (code all spell found).Bounded) (hlevels : 0 < levels) (a : α) :
    Reads ((code all spell found).readCbor levels) ((code all spell found).writeCbor a) a := by
  have hfind : all.find? (fun b => Utf8.encode (spell b) = Utf8.encode (spell a)) = some a := by
    rw [← found a]
    congr
    funext b
    exact decide_eq_decide.mpr ⟨Utf8.encode_injective, congrArg Utf8.encode⟩
  refine (reads_readCaseName (length_spell_le h a) hlevels).bind_nil ?_
  rw [hfind]
  exact reads_pure a

/-- A value whose head is not that of the null value is read as a value that is there. -/
theorem reads_maybe (hlead : Leads head bytes) (hne : head ≠ .simple 22 ∧ head ≠ .simple 23)
    (h : Reads (content.readCbor levels) bytes a) :
    Reads ((maybe content).readCbor levels) bytes (some a) := by
  refine hlead.reads_peek ?_
  split
  · exact (hne.1 rfl).elim
  · exact (hne.2 rfl).elim
  · exact h.map some

/-- A record is read if its entries fill its places. -/
theorem reads_record {fields : Fields α} (h : (record fields).Bounded)
    (hfills : Steps (fields.Fills levels) fields.vacant (fields.toEntries a) (fields.slotsOf a)) :
    Reads ((record fields).readCbor (levels + 1)) ((record fields).writeCbor a) a := by
  have hcount : fields.countWritten a < 2 ^ 64 :=
    Nat.lt_of_le_of_lt (fields.countWritten_le a) h.1
  have hnames : ∀ e ∈ fields.toEntries a, (Utf8.encode e.1).length ≤ window := fun e he =>
    fields.length_name_le h.2 _ (fields.name_mem_of_mem_written a e he)
  have hrows := Fields.reads_rows hfills hnames
  rw [← fields.countWritten_eq, ← fields.writeCbor_eq] at hrows
  refine ((reads_mapHead hcount).wanted (by simp)).bind (Reads.nested ?_)
  exact hrows.bind_nil (reads_lift (fields.finish_slotsOf a))

end Schema

mutual

/-- A value is read from what is written for it. -/
theorem Schema.reads_writeCbor : {α : Type} → (schema : Schema α) → schema.WellFormed →
    schema.Bounded → (levels : Nat) → schema.depth ≤ levels → (a : α) → schema.Fits a →
    Reads (schema.readCbor levels) (schema.writeCbor a) a
  | _, .text, _, _, _, _, s, ha =>
    ((reads_textHead ha).wanted (by simp)).bind (reads_readText s)
  | _, .flag, _, _, _, _, true, _ =>
    ((reads_simple (n := 21) (by decide)).wanted (by simp)).bind_nil (reads_pure true)
  | _, .flag, _, _, _, _, false, _ =>
    ((reads_simple (n := 20) (by decide)).wanted (by simp)).bind_nil (reads_pure false)
  | _, .octets _, _, h, _ + 1, _, bytes, _ => Schema.reads_octets h bytes
  | _, .code _ _ _, _, h, _, hlevels, a, _ => Schema.reads_code h hlevels a
  | _, .maybe _, _, _, _, _, none, _ => by
    have hnull : Reads pull [0xF6] (.simple 22) := reads_simple (n := 22) (by decide)
    exact (Leads.of_reads hnull []).reads_peek (hnull.bind_nil (reads_pure none))
  | _, .maybe content, hwf, h, levels, hlevels, some a, ha => by
    have hlead := content.leads_writeCbor h a ha
    have hcontent := content.reads_writeCbor hwf.2 h levels hlevels a ha
    exact Schema.reads_maybe hlead (content.head_ne_null a hwf.1) hcontent
  | _, .list item, hwf, h, levels + 1, hlevels, as, ha => by
    obtain ⟨hlength, ha⟩ := ha
    refine ((reads_arrayHead hlength).wanted (by simp)).bind (Reads.nested ?_)
    refine reads_readItems (fun a hmem => ?_) fun a hmem => ?_
    · exact (item.leads_writeCbor h a (ha a hmem)).ne_nil
    · exact item.reads_writeCbor hwf h levels (Nat.le_of_succ_le_succ hlevels) a (ha a hmem)
  | _, .record fields, hwf, h, levels + 1, hlevels, a, ha => by
    obtain ⟨hnodup, hwf⟩ := hwf
    have hdepth := Nat.le_of_succ_le_succ hlevels
    exact Schema.reads_record h (fields.fills_toEntries hwf hnodup h.2 levels hdepth a ha)
  | _, .choice cases, hwf, h, levels, hlevels, a, ha => by
    obtain ⟨hnodup, hwf⟩ := hwf
    have hdepth : cases.depth ≤ levels - 1 := Nat.le_sub_one_of_lt hlevels
    obtain ⟨key, -, front, back, hbytes, hkey, hcase⟩ :=
      cases.reads_writeCbor hwf hnodup h (levels - 1) hdepth a ha
    show Reads (readCaseName levels >>= cases.readCbor (levels - 1)) (cases.writeCbor a) a
    rw [hbytes]
    exact (hkey levels (Nat.lt_of_le_of_lt (Nat.zero_le _) hlevels)).bind hcase
  | _, .view shown toView ofView hview, hwf, h, levels, hlevels, b, hb => by
    have hshown := shown.reads_writeCbor hwf h levels hlevels (toView b) hb
    refine hshown.bind_nil ?_
    rw [hview]
    exact reads_pure b

/-- The entries of a record fill its places. -/
theorem Fields.fills_toEntries : {α : Type} → (fields : Fields α) → fields.WellFormed →
    fields.names.Nodup → fields.Bounded → (levels : Nat) → fields.depth ≤ levels → (a : α) →
    fields.Fits a →
    Steps (fields.Fills levels) fields.vacant (fields.toEntries a) (fields.slotsOf a)
  | _, .none, _, _, _, _, _, _, _ => .nil _
  | _, .field name content presence rest, hwf, hnodup, h, levels, hlevels, (a, b), hab => by
    obtain ⟨hcontent, hrest⟩ := hwf
    obtain ⟨hname, hnodup⟩ := List.nodup_cons.mp hnodup
    obtain ⟨-, hbcontent, hbrest⟩ := h
    obtain ⟨hlcontent, hlrest⟩ := Nat.max_le.mp hlevels
    obtain ⟨ha, hb⟩ := hab
    have hsteps := rest.fills_toEntries hrest hnodup hbrest levels hlrest b hb
    -- the entries of the other fields have other names, so the place of the first one is kept
    have hne : ∀ e ∈ rest.toEntries b, e.1 ≠ name := fun e he heq =>
      hname (heq ▸ rest.name_mem_of_mem_written b e he)
    have hlift (slot : Option _) :
        Steps ((Fields.field name content presence rest).Fills levels) (slot, rest.vacant)
          (rest.toEntries b) (slot, rest.slotsOf b) := by
      rw [← List.map_id (rest.toEntries b)]
      exact hsteps.map (f := fun slots => (slot, slots)) fun _ e he _ hfills =>
        hfills.of_ne (hne e he) slot
    rw [Fields.toEntries, Fields.written, Fields.slotsOf, Fields.vacant]
    split
    · exact hlift Option.none
    · refine .cons (Fields.fills_name ?_ _) (hlift (some a))
      exact content.reads_writeCbor hcontent hbcontent levels hlcontent a ha

/-- A case is read from what is written for it. -/
theorem Cases.reads_writeCbor : {α : Type} → (cases : Cases α) → cases.WellFormed →
    cases.names.Nodup → cases.Bounded → (levels : Nat) → cases.depth ≤ levels → (a : α) →
    cases.Fits a → cases.ReadsCase levels (cases.writeCbor a) a
  | _, .plain name rest, _, _, h, levels, _, .inl _, _ => by
    refine ⟨name, List.mem_cons_self, textBytes name, [], (List.append_nil _).symm,
      fun _ => reads_readCaseName h.1, ?_⟩
    rw [Cases.readCbor, if_pos rfl]
    exact reads_pure _
  | _, .carrying name content rest, hwf, _, h, levels, hlevels, .inl a, ha => by
    have hcontent := content.reads_writeCbor hwf.1 h.2.1 levels (Nat.max_le.mp hlevels).1 a ha
    refine ⟨name, List.mem_cons_self, _, content.writeCbor a, rfl,
      fun _ => reads_readCaseName_map h.1, ?_⟩
    rw [Cases.readCbor, if_pos rfl]
    exact hcontent.map Sum.inl
  | _, .plain name rest, hwf, hnodup, h, levels, hlevels, .inr b, hb => by
    obtain ⟨hname, hnodup⟩ := List.nodup_cons.mp hnodup
    have hrest := rest.reads_writeCbor hwf hnodup h.2 levels hlevels b hb
    exact hrest.later hname rfl fun key hne => by rw [Cases.readCbor, if_neg hne]
  | _, .carrying name content rest, hwf, hnodup, h, levels, hlevels, .inr b, hb => by
    obtain ⟨hname, hnodup⟩ := List.nodup_cons.mp hnodup
    have hdepth := (Nat.max_le.mp hlevels).2
    have hrest := rest.reads_writeCbor hwf.2 hnodup h.2.2 levels hdepth b hb
    exact hrest.later hname rfl fun key hne => by rw [Cases.readCbor, if_neg hne]

end

/-! ## Whole documents -/

namespace Schema

variable {α : Type} {schema : Schema α} {a b : α}

/-- **CBOR undoes itself.**  A value is read back from its bytes, whatever bytes follow. -/
theorem ofCbor_toCbor (hwf : schema.WellFormed) (h : schema.Bounded)
    (hdepth : schema.depth ≤ maxLevels) (ha : schema.Fits a) (rest : List UInt8) :
    schema.ofCbor (schema.toCbor a ++ rest) = .ok a := by
  have hread := schema.reads_writeCbor hwf h maxLevels hdepth a ha rest
  show Prod.fst <$> schema.readCbor maxLevels (schema.writeCbor a ++ rest) = .ok a
  rw [hread]
  rfl

/-- The bytes of a value are not the front of the bytes of another value. -/
theorem eq_of_toCbor_prefix (hwf : schema.WellFormed) (h : schema.Bounded)
    (hdepth : schema.depth ≤ maxLevels) (ha : schema.Fits a) (hb : schema.Fits b)
    (hfront : schema.toCbor a <+: schema.toCbor b) : a = b := by
  obtain ⟨rest, hrest⟩ := hfront
  have hreada := ofCbor_toCbor hwf h hdepth ha rest
  have hreadb := ofCbor_toCbor hwf h hdepth hb []
  rw [List.append_nil] at hreadb
  rw [hrest, hreadb] at hreada
  exact (Except.ok.inj hreada).symm

end Schema

end Delegation
