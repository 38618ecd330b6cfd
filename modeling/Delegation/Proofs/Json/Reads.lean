/-
# Texts from which values are read

A text from which a value is read may stand anywhere: in front of a comma, a bracket, a brace or a
blank the same value is read from it, and exactly that text is consumed.  Such texts are put
together as the grammar says, and blanks may stand between tokens.

## Key constructions

* `Json.Blank` — a text of nothing but blanks.
* `Json.Reads` — a value is read from a text.
* `Json.ReadsItems`, `Json.ReadsMembers` — what follows the opening bracket or brace is read.

## Key results

* `Json.reads_text`, `Json.reads_number` — quoted texts and numbers are read.
* `Json.readsItems_cons`, `Json.readsMembers_cons` — one more item or member in front.
* `Schema.ofJson_of_reads` — a whole text has the value of the tree that is read from it.
-/
import Delegation.Codec.Json.Form
import Delegation.Proofs.Json.Token

namespace Delegation

namespace Json

variable {c : Char} {n : Nat} {cs rest u v w : List Char} {r : Reading}
  {items : Items} {members : Members}

/-! ## Blanks -/

/-- A text of nothing but blanks. -/
def Blank (cs : List Char) : Prop := ∀ c ∈ cs, isBlank c = true

instance (cs : List Char) : Decidable (Blank cs) := List.decidableBAll _ cs

theorem blank_nil : Blank [] := fun _ h => absurd h List.not_mem_nil

theorem eq_of_isBlank (hc : isBlank c = true) : c = ' ' ∨ c = '\t' ∨ c = '\n' ∨ c = '\r' := by
  simpa [isBlank, or_assoc] using hc

theorem skipBlanks_append (hw : Blank w) (cs : List Char) : skipBlanks (w ++ cs) = skipBlanks cs :=
  List.dropWhile_append_of_pos hw

theorem skipBlanks_cons (hc : isBlank c = false) (cs : List Char) :
    skipBlanks (c :: cs) = c :: cs :=
  List.dropWhile_cons_of_neg (by simp [hc])

theorem skipBlanks_append_cons (hw : Blank w) (hc : isBlank c = false) (cs : List Char) :
    skipBlanks (w ++ c :: cs) = c :: cs := by
  rw [skipBlanks_append hw, skipBlanks_cons hc]

/-- Blanks in front of a value do not count. -/
theorem readValue_append (hw : Blank w) (fuel : Nat) (cs : List Char) :
    readValue fuel (w ++ cs) = readValue fuel cs := by
  cases fuel with
  | zero => rfl
  | succ fuel => rw [readValue, readValue, skipBlanks_append hw]

theorem readValue_skipBlanks (fuel : Nat) (cs : List Char) :
    readValue fuel (skipBlanks cs) = readValue fuel cs := by
  have hcs : cs.takeWhile isBlank ++ skipBlanks cs = cs := List.takeWhile_append_dropWhile
  have hblank : Blank (cs.takeWhile isBlank) := List.all_eq_true.mp List.all_takeWhile
  rw [← readValue_append hblank fuel (skipBlanks cs), hcs]

/-! ## The end of a number -/

theorem endsNumber_nil : EndsNumber [] := by
  rintro _ ⟨⟩

theorem endsNumber_blanks (hw : Blank w) (hrest : EndsNumber rest) : EndsNumber (w ++ rest) := by
  cases w with
  | nil => exact hrest
  | cons c w =>
    rintro _ ⟨⟩
    rcases eq_of_isBlank (hw c List.mem_cons_self) with rfl | rfl | rfl | rfl <;> decide

theorem endsNumber_comma (cs : List Char) : EndsNumber (',' :: cs) := by
  rintro _ ⟨⟩
  decide

theorem endsNumber_bracket (cs : List Char) : EndsNumber (']' :: cs) := by
  rintro _ ⟨⟩
  decide

theorem endsNumber_brace (cs : List Char) : EndsNumber ('}' :: cs) := by
  rintro _ ⟨⟩
  decide

/-! ## Values -/

/-- The value is read from the text, wherever the text stands. -/
def Reads (cs : List Char) (r : Reading) : Prop :=
  ∀ fuel rest, 2 * cs.length ≤ fuel → EndsNumber rest →
    readValue (fuel + 1) (cs ++ rest) = (r, rest)

theorem Reads.blanks (h : Reads cs r) (hw : Blank w) : Reads (w ++ cs) r := by
  intro fuel rest hfuel hrest
  rw [List.length_append] at hfuel
  rw [List.append_assoc, readValue_append hw]
  exact h fuel rest (by omega) hrest

/-- The value is read from the whole text, with blanks on either side. -/
theorem Reads.read (h : Reads cs r) (hu : Blank u) (hw : Blank w) :
    read (u ++ (cs ++ w)) = (r, w) := by
  have hends : EndsNumber (w ++ []) := endsNumber_blanks hw endsNumber_nil
  rw [List.append_nil] at hends
  have hfuel : 2 * cs.length ≤ 2 * (u ++ (cs ++ w)).length + 1 := by
    simp only [List.length_append]
    omega
  rw [Json.read, readValue_append hu]
  exact h _ w hfuel hends

theorem reads_null : Reads ['n', 'u', 'l', 'l'] .null := fun _ _ _ _ => rfl

theorem reads_bool (b : Bool) :
    Reads (if b then ['t', 'r', 'u', 'e'] else ['f', 'a', 'l', 's', 'e']) (.bool b) := by
  intro fuel rest hfuel hrest
  cases b <;> rfl

/-- What is quoted is read as what it denotes. -/
theorem reads_text {t : Option String} (h : Quoted cs t) : Reads cs (.text t) := by
  intro fuel rest hfuel hrest
  obtain ⟨ds, rfl, hscan⟩ := h.scanText
  show orBroken .text (scanText (ds ++ rest)) = _
  rw [hscan]
  rfl

theorem readValue_of_numeral (hc : c.isDigit ∨ c = '-') (fuel : Nat) (cs : List Char) :
    readValue (fuel + 1) (c :: cs) = orBroken .number (Number.scan (c :: cs)) := by
  have hne {d : Char} (hd : d.isDigit = false) (hsign : d ≠ '-') : c ≠ d := by
    rintro rfl
    rcases hc with hc | rfl
    · rw [hc] at hd
      cases hd
    · exact hsign rfl
  have hblank : isBlank c = false := by
    refine Bool.eq_false_iff.mpr fun h => ?_
    rcases eq_of_isBlank h with hc | hc | hc | hc <;> exact hne (by decide) (by decide) hc
  rw [readValue, skipBlanks_cons hblank]
  simp only [hne (d := '[') rfl (by decide), hne (d := '{') rfl (by decide),
    hne (d := '"') rfl (by decide), hne (d := 'n') rfl (by decide), hne (d := 't') rfl (by decide),
    hne (d := 'f') rfl (by decide), if_false]

/-- A number is read up to its end. -/
theorem reads_number {n : Number} (h : Numeral cs n) : Reads cs (.number n) := by
  intro fuel rest hfuel hrest
  have hscan := h.scan hrest
  obtain ⟨c, t, rfl, hc⟩ := h.exists_cons
  rw [List.cons_append] at hscan ⊢
  rw [readValue_of_numeral hc, hscan]
  rfl

/-! ## Items -/

/-- The items are read from the text, which ends with the closing bracket. -/
def ReadsItems (cs : List Char) (items : Items) : Prop :=
  ∀ isFirst fuel rest, 2 * cs.length ≤ fuel →
    readItems fuel isFirst (cs ++ rest) = (items, rest)

theorem reads_array (h : ReadsItems cs items) : Reads ('[' :: cs) (.array items) := by
  intro fuel rest hfuel hrest
  rw [List.length_cons] at hfuel
  have hitems := h true fuel rest (by omega)
  exact congrArg (Prod.map Reading.array id) hitems

theorem reads_emptyArray (hw : Blank w) : Reads ('[' :: (w ++ [']'])) (.array .closed) := by
  intro fuel rest hfuel hrest
  obtain ⟨fuel, rfl⟩ : ∃ k, fuel = k + 1 := ⟨fuel - 1, by simp at hfuel; omega⟩
  have hclosed : skipBlanks (w ++ [']'] ++ rest) = ']' :: rest := by
    rw [List.append_assoc]
    exact skipBlanks_append_cons hw rfl rest
  have hitems : readItems (fuel + 1) true (w ++ [']'] ++ rest) = (.closed, rest) := by
    unfold readItems
    rw [hclosed]
    rfl
  exact congrArg (Prod.map Reading.array id) hitems

/-- A text from which a value is read does not start with a closing bracket. -/
theorem Reads.ne_bracket (h : Reads cs r) (hne : rest ≠ []) (hrest : EndsNumber rest)
    (ds : List Char) : skipBlanks (cs ++ rest) ≠ ']' :: ds := by
  intro hbracket
  have hread := h _ rest (Nat.le_refl _) hrest
  rw [← readValue_skipBlanks, hbracket] at hread
  exact hne (congrArg Prod.snd hread).symm

/-- How the items go on behind a first one. -/
theorem readItems_succ {isFirst : Bool} (hcs : ∀ ds, skipBlanks cs ≠ ']' :: ds) (fuel : Nat) :
    readItems (fuel + 1) isFirst cs =
      match skipBlanks (readValue fuel cs).2 with
      | ',' :: rest =>
        (.item (readValue fuel cs).1 (readItems fuel false rest).1,
          (readItems fuel false rest).2)
      | ']' :: rest => (.item (readValue fuel cs).1 .closed, rest)
      | _ => (.item (readValue fuel cs).1 .broken, []) := by
  rw [← readValue_skipBlanks]
  conv => lhs; unfold readItems
  split
  next heq => exact (hcs _ heq).elim
  next => rfl

theorem readsItems_last (hv : Reads v r) (hw : Blank w) :
    ReadsItems (v ++ (w ++ [']'])) (.item r .closed) := by
  intro isFirst fuel rest hfuel
  simp only [List.length_append, List.length_singleton] at hfuel
  obtain ⟨fuel, rfl⟩ : ∃ k, fuel = k + 2 := ⟨fuel - 2, by omega⟩
  have hends : EndsNumber (w ++ ']' :: rest) := endsNumber_blanks hw (endsNumber_bracket rest)
  have hbracket : skipBlanks (w ++ ']' :: rest) = ']' :: rest :=
    skipBlanks_append_cons hw rfl rest
  have htext : v ++ (w ++ [']']) ++ rest = v ++ (w ++ ']' :: rest) := by simp
  rw [htext, readItems_succ (hv.ne_bracket (by simp) hends), hv fuel _ (by omega) hends]
  simp only [hbracket]

theorem readsItems_cons (hv : Reads v r) (hw : Blank w) (hcs : ReadsItems cs items) :
    ReadsItems (v ++ (w ++ ',' :: cs)) (.item r items) := by
  intro isFirst fuel rest hfuel
  simp only [List.length_append, List.length_cons] at hfuel
  obtain ⟨fuel, rfl⟩ : ∃ k, fuel = k + 2 := ⟨fuel - 2, by omega⟩
  have hends : EndsNumber (w ++ ',' :: (cs ++ rest)) := endsNumber_blanks hw (endsNumber_comma _)
  have hcomma : skipBlanks (w ++ ',' :: (cs ++ rest)) = ',' :: (cs ++ rest) :=
    skipBlanks_append_cons hw rfl _
  have htext : v ++ (w ++ ',' :: cs) ++ rest = v ++ (w ++ ',' :: (cs ++ rest)) := by simp
  rw [htext, readItems_succ (hv.ne_bracket (by simp) hends), hv fuel _ (by omega) hends]
  simp only [hcomma, hcs false (fuel + 1) rest (by omega)]

/-! ## Members -/

/-- The members are read from the text, which ends with the closing brace. -/
def ReadsMembers (cs : List Char) (members : Members) : Prop :=
  ∀ isFirst fuel rest, 2 * cs.length ≤ fuel →
    readMembers fuel isFirst (cs ++ rest) = (members, rest)

theorem reads_object (h : ReadsMembers cs members) : Reads ('{' :: cs) (.object members) := by
  intro fuel rest hfuel hrest
  rw [List.length_cons] at hfuel
  have hmembers := h true fuel rest (by omega)
  exact congrArg (Prod.map Reading.object id) hmembers

theorem reads_emptyObject (hw : Blank w) : Reads ('{' :: (w ++ ['}'])) (.object .closed) := by
  intro fuel rest hfuel hrest
  obtain ⟨fuel, rfl⟩ : ∃ k, fuel = k + 1 := ⟨fuel - 1, by simp at hfuel; omega⟩
  have hclosed : skipBlanks (w ++ ['}'] ++ rest) = '}' :: rest := by
    rw [List.append_assoc]
    exact skipBlanks_append_cons hw rfl rest
  have hmembers : readMembers (fuel + 1) true (w ++ ['}'] ++ rest) = (.closed, rest) := by
    unfold readMembers
    rw [hclosed]
    rfl
  exact congrArg (Prod.map Reading.object id) hmembers

/-- Blanks in front of members do not count. -/
theorem ReadsMembers.blanks (h : ReadsMembers cs members) (hw : Blank w) :
    ReadsMembers (w ++ cs) members := by
  intro isFirst fuel rest hfuel
  rw [List.length_append] at hfuel
  rw [← h isFirst fuel rest (by omega), List.append_assoc]
  cases fuel with
  | zero => rfl
  | succ fuel =>
    unfold readMembers
    rw [skipBlanks_append hw]

/-- How the members go on behind a first name. -/
theorem readMembers_succ {isFirst : Bool} {k : List Char} {name : Option String}
    (hk : Quoted k name) (hu : Blank u) (cs : List Char) (fuel : Nat) :
    readMembers (fuel + 1) isFirst (k ++ (u ++ ':' :: cs)) =
      match skipBlanks (readValue fuel cs).2 with
      | ',' :: rest =>
        (.member name (readValue fuel cs).1 (readMembers fuel false rest).1,
          (readMembers fuel false rest).2)
      | '}' :: rest => (.member name (readValue fuel cs).1 .closed, rest)
      | _ => (.member name (readValue fuel cs).1 .broken, []) := by
  have hcolon : skipBlanks (u ++ ':' :: cs) = ':' :: cs := skipBlanks_append_cons hu rfl cs
  obtain ⟨t, rfl, hscan⟩ := hk.scanText
  conv => lhs; unfold readMembers
  rw [List.cons_append, skipBlanks_cons (c := '"') rfl]
  simp only [hscan]
  generalize skipBlanks (u ++ ':' :: cs) = colon at hcolon
  subst hcolon
  rfl

theorem readsMembers_last {k : List Char} {name : Option String} (hk : Quoted k name)
    (hu : Blank u) (hv : Reads v r) (hw : Blank w) :
    ReadsMembers (k ++ (u ++ ':' :: (v ++ (w ++ ['}'])))) (.member name r .closed) := by
  intro isFirst fuel rest hfuel
  simp only [List.length_append, List.length_cons, List.length_nil] at hfuel
  obtain ⟨fuel, rfl⟩ : ∃ k, fuel = k + 2 := ⟨fuel - 2, by omega⟩
  have hends : EndsNumber (w ++ '}' :: rest) := endsNumber_blanks hw (endsNumber_brace rest)
  have hbrace : skipBlanks (w ++ '}' :: rest) = '}' :: rest := skipBlanks_append_cons hw rfl rest
  have htext : k ++ (u ++ ':' :: (v ++ (w ++ ['}']))) ++ rest =
      k ++ (u ++ ':' :: (v ++ (w ++ '}' :: rest))) := by simp
  rw [htext, readMembers_succ hk hu, hv fuel _ (by omega) hends]
  simp only [hbrace]

theorem readsMembers_cons {k : List Char} {name : Option String} (hk : Quoted k name)
    (hu : Blank u) (hv : Reads v r) (hw : Blank w) (hcs : ReadsMembers cs members) :
    ReadsMembers (k ++ (u ++ ':' :: (v ++ (w ++ ',' :: cs)))) (.member name r members) := by
  intro isFirst fuel rest hfuel
  simp only [List.length_append, List.length_cons] at hfuel
  obtain ⟨fuel, rfl⟩ : ∃ k, fuel = k + 2 := ⟨fuel - 2, by omega⟩
  have hends : EndsNumber (w ++ ',' :: (cs ++ rest)) := endsNumber_blanks hw (endsNumber_comma _)
  have hcomma : skipBlanks (w ++ ',' :: (cs ++ rest)) = ',' :: (cs ++ rest) :=
    skipBlanks_append_cons hw rfl _
  have htext : k ++ (u ++ ':' :: (v ++ (w ++ ',' :: cs))) ++ rest =
      k ++ (u ++ ':' :: (v ++ (w ++ ',' :: (cs ++ rest)))) := by simp
  rw [htext, readMembers_succ hk hu, hv fuel _ (by omega) hends]
  simp only [hcomma, hcs false (fuel + 1) rest (by omega)]

end Json

open Json

/-! ## Whole texts -/

/-- A whole text has the value of the tree that is read from it, whatever blanks stand before and
after. -/
theorem Schema.ofJson_of_reads {α : Type} (schema : Schema α) {text : String} {u cs w : List Char}
    {r : Reading} (h : Reads cs r) (hu : Blank u) (hw : Blank w)
    (htext : text.toList = u ++ (cs ++ w)) : schema.ofJson text = schema.ofReading r := by
  have hblank : w.all isBlank = true := List.all_eq_true.mpr hw
  rw [Schema.ofJson, htext, h.read hu hw]
  show (do
    let a ← schema.ofReading r
    if w.all isBlank then return a else throw .malformed : Except Fault α) = _
  rw [hblank]
  exact bind_pure _

end Delegation
