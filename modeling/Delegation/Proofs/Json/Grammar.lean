/-
# The grammar of JSON

Which texts are JSON, said without a reader: a value is a word, a number, a quoted text, or a row of
items or members with commas between them, and blanks may stand between any two tokens.  The reader
takes every such text up to its end, and finds the tree that the text spells.

## Key constructions

* `Json.Spells`, `Json.SpellsItems`, `Json.SpellsMembers` — the grammar, with the tree that a text
  spells.
* `Json.Denotes` — a whole text spells a tree, with blanks on either side.

## Key results

* `Json.Spells.reads` — the reader finds the tree that a text spells.
* `Json.Spells.intact` — no such tree has a broken place.
* `Json.spells_arrayText`, `Json.spells_objectText` — rows that are written are spelled.
-/
import Delegation.Proofs.Json.Reads
import Mathlib.Data.List.Forall2

namespace Delegation

namespace Json

mutual

/-- The text spells the tree. -/
inductive Spells : List Char → Reading → Prop
  | null : Spells ['n', 'u', 'l', 'l'] .null
  | bool (b : Bool) :
      Spells (if b then ['t', 'r', 'u', 'e'] else ['f', 'a', 'l', 's', 'e']) (.bool b)
  | number {cs : List Char} {n : Number} (h : Numeral cs n) : Spells cs (.number n)
  | text {cs : List Char} {s : Option String} (h : Quoted cs s) : Spells cs (.text s)
  | emptyArray {w : List Char} (hw : Blank w) : Spells ('[' :: (w ++ [']'])) (.array .closed)
  | array {cs : List Char} {items : Items} (h : SpellsItems cs items) :
      Spells ('[' :: cs) (.array items)
  | emptyObject {w : List Char} (hw : Blank w) : Spells ('{' :: (w ++ ['}'])) (.object .closed)
  | object {cs : List Char} {members : Members} (h : SpellsMembers cs members) :
      Spells ('{' :: cs) (.object members)

/-- The text spells items, one at least, and a closing bracket. -/
inductive SpellsItems : List Char → Items → Prop
  | last {u v w : List Char} {r : Reading} (hu : Blank u) (hv : Spells v r) (hw : Blank w) :
      SpellsItems (u ++ v ++ (w ++ [']'])) (.item r .closed)
  | cons {u v w cs : List Char} {r : Reading} {items : Items} (hu : Blank u) (hv : Spells v r)
      (hw : Blank w) (h : SpellsItems cs items) :
      SpellsItems (u ++ v ++ (w ++ ',' :: cs)) (.item r items)

/-- The text spells members, one at least, and a closing brace. -/
inductive SpellsMembers : List Char → Members → Prop
  | last {t k u x v w : List Char} {name : Option String} {r : Reading} (ht : Blank t)
      (hk : Quoted k name) (hu : Blank u) (hx : Blank x) (hv : Spells v r) (hw : Blank w) :
      SpellsMembers (t ++ (k ++ (u ++ ':' :: (x ++ v ++ (w ++ ['}']))))) (.member name r .closed)
  | cons {t k u x v w cs : List Char} {name : Option String} {r : Reading} {members : Members}
      (ht : Blank t) (hk : Quoted k name) (hu : Blank u) (hx : Blank x) (hv : Spells v r)
      (hw : Blank w) (h : SpellsMembers cs members) :
      SpellsMembers (t ++ (k ++ (u ++ ':' :: (x ++ v ++ (w ++ ',' :: cs)))))
        (.member name r members)

end

/-! ## Reading what is spelled -/

mutual

/-- The reader finds the tree that is spelled. -/
theorem Spells.reads {cs : List Char} {r : Reading} : Spells cs r → Reads cs r
  | .null => reads_null
  | .bool b => reads_bool b
  | .number h => reads_number h
  | .text h => reads_text h
  | .emptyArray hw => reads_emptyArray hw
  | .array h => reads_array h.reads
  | .emptyObject hw => reads_emptyObject hw
  | .object h => reads_object h.reads

theorem SpellsItems.reads {cs : List Char} {items : Items} :
    SpellsItems cs items → ReadsItems cs items
  | .last hu hv hw => readsItems_last (hv.reads.blanks hu) hw
  | .cons hu hv hw h => readsItems_cons (hv.reads.blanks hu) hw h.reads

theorem SpellsMembers.reads {cs : List Char} {members : Members} :
    SpellsMembers cs members → ReadsMembers cs members
  | .last ht hk hu hx hv hw => (readsMembers_last hk hu (hv.reads.blanks hx) hw).blanks ht
  | .cons ht hk hu hx hv hw h =>
    (readsMembers_cons hk hu (hv.reads.blanks hx) hw h.reads).blanks ht

end

mutual

/-- What is spelled has no broken place. -/
theorem Spells.intact {cs : List Char} {r : Reading} : Spells cs r → r.intact = true
  | .null | .bool _ | .number _ | .text _ | .emptyArray _ | .emptyObject _ => rfl
  | .array h => h.intact
  | .object h => h.intact

theorem SpellsItems.intact {cs : List Char} {items : Items} :
    SpellsItems cs items → items.intact = true
  | .last _ hv _ => Bool.and_eq_true_iff.mpr ⟨hv.intact, rfl⟩
  | .cons _ hv _ h => Bool.and_eq_true_iff.mpr ⟨hv.intact, h.intact⟩

theorem SpellsMembers.intact {cs : List Char} {members : Members} :
    SpellsMembers cs members → members.intact = true
  | .last _ _ _ _ hv _ => Bool.and_eq_true_iff.mpr ⟨hv.intact, rfl⟩
  | .cons _ _ _ _ hv _ h => Bool.and_eq_true_iff.mpr ⟨hv.intact, h.intact⟩

end

/-! ## What is written -/

/-- Items are spelled by the row of texts that spell each of them. -/
theorem spellsItems_commas {t : List Char} {r : Reading} {texts : List (List Char)}
    {readings : List Reading} (ht : Spells t r) (h : List.Forall₂ Spells texts readings) :
    SpellsItems (commas (t :: texts) ++ [']']) (.ofList (r :: readings)) := by
  induction h generalizing t r with
  | nil =>
    have hlast := SpellsItems.last blank_nil ht blank_nil
    simpa [commas, Items.ofList] using hlast
  | cons ht' _ ih =>
    have hcons := SpellsItems.cons blank_nil ht blank_nil (ih ht')
    simpa [commas, Items.ofList] using hcons

/-- An array is spelled by the texts that spell its items. -/
theorem spells_arrayText {texts : List (List Char)} {readings : List Reading}
    (h : List.Forall₂ Spells texts readings) :
    Spells (arrayText texts) (.array (.ofList readings)) := by
  cases h with
  | nil => exact .emptyArray blank_nil
  | cons ht h => exact .array (spellsItems_commas ht h)

theorem spells_arrayText_map {α : Type} {write : α → List Char} {value : α → Reading} {as : List α}
    (h : ∀ a ∈ as, Spells (write a) (value a)) :
    Spells (arrayText (as.map write)) (.array (.ofList (as.map value))) := by
  refine spells_arrayText (List.forall₂_map_left_iff.mpr (List.forall₂_map_right_iff.mpr ?_))
  exact List.forall₂_same.mpr h

/-- The text is that of a member with the name, whose value is spelled. -/
def SpellsMember (cs : List Char) (member : String × Reading) : Prop :=
  ∃ v, Spells v member.2 ∧ cs = memberText member.1 v

theorem Spells.member {v : List Char} {r : Reading} (h : Spells v r) (name : String) :
    SpellsMember (memberText name v) (name, r) := ⟨v, h, rfl⟩

/-- Members are spelled by the row of texts that spell each of them. -/
theorem spellsMembers_commas {t : List Char} {m : String × Reading} {texts : List (List Char)}
    {ms : List (String × Reading)} (ht : SpellsMember t m)
    (h : List.Forall₂ SpellsMember texts ms) :
    SpellsMembers (commas (t :: texts) ++ ['}']) (.ofList (m :: ms)) := by
  induction h generalizing t m with
  | nil =>
    obtain ⟨v, hv, rfl⟩ := ht
    have hlast := SpellsMembers.last blank_nil (quoted_quote m.1) blank_nil blank_nil hv blank_nil
    simpa [commas, memberText, Members.ofList] using hlast
  | cons ht' _ ih =>
    obtain ⟨v, hv, rfl⟩ := ht
    have hcons :=
      SpellsMembers.cons blank_nil (quoted_quote m.1) blank_nil blank_nil hv blank_nil (ih ht')
    simpa [commas, memberText, Members.ofList] using hcons

/-- An object is spelled by the texts that spell its members. -/
theorem spells_objectText {texts : List (List Char)} {ms : List (String × Reading)}
    (h : List.Forall₂ SpellsMember texts ms) :
    Spells (objectText texts) (.object (.ofList ms)) := by
  cases h with
  | nil => exact .emptyObject blank_nil
  | cons ht h => exact .object (spellsMembers_commas ht h)

/-! ## Whole texts -/

/-- The text spells the tree, with blanks on either side. -/
def Denotes (text : String) (r : Reading) : Prop :=
  ∃ u cs w, Blank u ∧ Spells cs r ∧ Blank w ∧ text.toList = u ++ (cs ++ w)

/-- There is one way only to take a text. -/
theorem Denotes.unique {text : String} {r r' : Reading} (h : Denotes text r)
    (h' : Denotes text r') : r = r' := by
  obtain ⟨u, cs, w, hu, hcs, hw, htext⟩ := h
  obtain ⟨u', cs', w', hu', hcs', hw', htext'⟩ := h'
  have hread := hcs.reads.read hu hw
  have hread' := hcs'.reads.read hu' hw'
  rw [← htext] at hread
  rw [← htext', hread] at hread'
  exact congrArg Prod.fst hread'

theorem Denotes.intact {text : String} {r : Reading} (h : Denotes text r) : r.intact = true := by
  obtain ⟨_, _, _, _, hcs, _⟩ := h
  exact hcs.intact

end Json

open Json

/-- A text has the value of the tree that it spells. -/
theorem Schema.ofJson_of_denotes {α : Type} (schema : Schema α) {text : String} {r : Reading}
    (h : Denotes text r) : schema.ofJson text = schema.ofReading r := by
  obtain ⟨u, cs, w, hu, hcs, hw, htext⟩ := h
  exact schema.ofJson_of_reads hcs.reads hu hw htext

end Delegation
