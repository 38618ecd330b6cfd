/-
# Tokens of JSON

What may stand between quotes, and what a number may look like, as the grammar of JSON has it.  A
quoted text may have any characters, as they are or as escapes, and ends with a quote.  Nothing says
where a number ends but what follows it.  Both are scanned to their ends, wherever they stand, and
what is written for a text or for a number is a case of them.

## Key constructions

* `Json.SpellsCodes`, `Json.Quoted` — a quoted text, and what it denotes.
* `Json.DigitRow`, `Json.Fraction`, `Json.Exponent`, `Json.Numeral` — a number and its parts.
* `Json.EndsNumber` — what follows does not go on with a number.

## Key results

* `Json.Quoted.scanText`, `Json.quoted_quote` — quoted texts are scanned, written ones among them.
* `Json.Numeral.scan`, `Json.numeral_toDigits` — so are numbers, decimal digits among them.
-/
import Delegation.Codec.Json.Number
import Delegation.Codec.Json.Text

namespace Delegation

/-- A hexadecimal digit has the value for which it is written. -/
theorem Bytes.hexValue?_hexDigit {n : Nat} (h : n < 16) : hexValue? (hexDigit n) = some n := by
  revert n
  decide

namespace Json

variable {a b c d e : Char} {n : Nat} {cs rest : List Char} {codes : List Nat}

/-! ## Quoted texts -/

/-- The characters between two quotes spell the codes.  A character stands for its own code unless
it has to be escaped, a backslash and a character stand for the code of what they denote, and four
hexadecimal digits for any code, half of a surrogate pair or not. -/
inductive SpellsCodes : List Char → List Nat → Prop
  | nil : SpellsCodes [] []
  | plain {c : Char} {cs : List Char} {codes : List Nat} (hq : c ≠ '"') (hb : c ≠ '\\')
      (hc : 32 ≤ c.toNat) (h : SpellsCodes cs codes) : SpellsCodes (c :: cs) (c.toNat :: codes)
  | escaped {e c : Char} {cs : List Char} {codes : List Nat} (he : unescape? e = some c)
      (h : SpellsCodes cs codes) : SpellsCodes ('\\' :: e :: cs) (c.toNat :: codes)
  | hexQuad {a b c d : Char} {n : Nat} {cs : List Char} {codes : List Nat}
      (hn : hexQuad? a b c d = some n) (h : SpellsCodes cs codes) :
      SpellsCodes ('\\' :: 'u' :: a :: b :: c :: d :: cs) (n :: codes)

/-- The text is quoted, quotes included.  It denotes nothing if half of a surrogate pair stands
alone. -/
inductive Quoted : List Char → Option String → Prop
  | mk {cs : List Char} {codes : List Nat} (h : SpellsCodes cs codes) :
      Quoted ('"' :: (cs ++ ['"'])) ((pairHalves codes).map String.ofList)

/-- The codes are scanned up to the closing quote. -/
theorem SpellsCodes.scanCodes (h : SpellsCodes cs codes) (rest : List Char) :
    scanCodes (cs ++ '"' :: rest) = some (codes, rest) := by
  induction h with
  | nil =>
    rw [List.nil_append, scanCodes.eq_def]
    rfl
  | plain hq hb hc _ ih =>
    rw [List.cons_append, scanCodes.eq_def]
    simp only [hq, hb, Nat.not_lt.mpr hc, if_false, ih]
    rfl
  | @escaped e _ _ _ he _ ih =>
    -- no character is escaped by a `u`, so no digits are looked for
    have hu : e ≠ 'u' := by
      rintro rfl
      cases he
    rw [List.cons_append, List.cons_append, scanCodes.eq_def]
    simp [hu, he, ih]
  | hexQuad hn _ ih =>
    simp only [List.cons_append]
    rw [scanCodes.eq_def]
    simp [hn, ih]

/-- A quoted text is scanned from behind its opening quote. -/
theorem Quoted.scanText {s : Option String} (h : Quoted cs s) :
    ∃ t, cs = '"' :: t ∧ ∀ rest, scanText (t ++ rest) = some (s, rest) := by
  obtain ⟨h⟩ := h
  refine ⟨_, rfl, fun rest => ?_⟩
  rw [List.append_assoc, List.singleton_append, Json.scanText, h.scanCodes]
  rfl

/-- The digits of a control character spell its code. -/
theorem hexQuad?_control (h : n < 32) :
    hexQuad? '0' '0' (Bytes.hexDigit (n / 16)) (Bytes.hexDigit (n % 16)) = some n := by
  have hzero : Bytes.hexValue? '0' = some 0 := rfl
  have hhigh : Bytes.hexValue? (Bytes.hexDigit (n / 16)) = some (n / 16) :=
    Bytes.hexValue?_hexDigit (by omega)
  have hlow : Bytes.hexValue? (Bytes.hexDigit (n % 16)) = some (n % 16) :=
    Bytes.hexValue?_hexDigit (by omega)
  unfold hexQuad?
  rw [hzero, hhigh, hlow]
  exact congrArg some (by omega)

/-- What is written for a character stands for its code. -/
theorem SpellsCodes.escape (c : Char) (h : SpellsCodes cs codes) :
    SpellsCodes (escape c ++ cs) (c.toNat :: codes) := by
  fun_cases Json.escape c with
  | case1 hc | case2 _ hc | case3 _ _ hc | case4 _ _ _ hc | case5 _ _ _ _ hc
  | case6 _ _ _ _ _ hc | case7 _ _ _ _ _ _ hc =>
    subst hc
    exact h.escaped rfl
  | case8 _ _ _ _ _ _ _ hc => exact h.hexQuad (hexQuad?_control hc)
  | case9 hq hb _ _ _ _ _ hc => exact h.plain hq hb (Nat.not_lt.mp hc)

theorem spellsCodes_flatMap_escape (cs : List Char) :
    SpellsCodes (cs.flatMap escape) (cs.map Char.toNat) := by
  induction cs with
  | nil => exact .nil
  | cons c cs ih => exact ih.escape c

/-- No character is half of a surrogate pair. -/
theorem not_half (c : Char) : isHighHalf c.toNat = false ∧ isLowHalf c.toNat = false := by
  have hvalid : c.toNat < 0xD800 ∨ 0xDFFF < c.toNat ∧ c.toNat < 0x110000 := c.valid
  simp only [isHighHalf, isLowHalf, Bool.and_eq_false_iff, decide_eq_false_iff_not]
  omega

theorem pairHalves_map_toNat (cs : List Char) : pairHalves (cs.map Char.toNat) = some cs := by
  induction cs with
  | nil => simp [pairHalves]
  | cons c cs ih =>
    obtain ⟨hhigh, hlow⟩ := not_half c
    -- a code is read with the one behind it, which could be its other half
    cases cs with
    | nil => simp [pairHalves, hhigh, hlow]
    | cons d ds =>
      rw [List.map_cons] at ih
      simp [pairHalves, hhigh, hlow, ih]

/-- What is written for a text is quoted, and denotes the text. -/
theorem quoted_quote (s : String) : Quoted (quote s) (some s) := by
  have h := Quoted.mk (spellsCodes_flatMap_escape s.toList)
  rw [pairHalves_map_toNat, Option.map_some, String.ofList_toList] at h
  exact h

/-! ## Numbers -/

/-- A row of decimal digits, one at least, with their values. -/
structure DigitRow (cs : List Char) (ds : List Nat) : Prop where
  ne_nil : cs ≠ []
  isDigit : ∀ c ∈ cs, c.isDigit
  values : ds = cs.map fun c => c.toNat - 48

/-- What may stand for the digits behind the point. -/
inductive Fraction : List Char → Option (List Nat) → Prop
  | none : Fraction [] none
  | digits {cs : List Char} {ds : List Nat} (h : DigitRow cs ds) : Fraction ('.' :: cs) (some ds)

/-- What may stand for an exponent. -/
inductive Exponent : List Char → Option Int → Prop
  | none : Exponent [] none
  | digits {e : Char} {cs : List Char} {ds : List Nat} (he : e = 'e' ∨ e = 'E')
      (h : DigitRow cs ds) : Exponent (e :: cs) (some (ofDigits ds))
  | plus {e : Char} {cs : List Char} {ds : List Nat} (he : e = 'e' ∨ e = 'E')
      (h : DigitRow cs ds) : Exponent (e :: '+' :: cs) (some (ofDigits ds))
  | minus {e : Char} {cs : List Char} {ds : List Nat} (he : e = 'e' ∨ e = 'E')
      (h : DigitRow cs ds) : Exponent (e :: '-' :: cs) (some (-(ofDigits ds : Int)))

/-- The text of a number behind its sign.  A leading zero stands alone. -/
inductive Magnitude (isNegative : Bool) : List Char → Number → Prop
  | mk {ws fs es : List Char} {whole : List Nat} {fraction : Option (List Nat)}
      {exponent : Option Int} (hwhole : DigitRow ws whole)
      (hzero : ∀ ds, whole = 0 :: ds → ds = []) (hfraction : Fraction fs fraction)
      (hexponent : Exponent es exponent) :
      Magnitude isNegative (ws ++ (fs ++ es)) (.ofParts isNegative whole fraction exponent)

/-- The text of a number. -/
inductive Numeral : List Char → Number → Prop
  | unsigned {cs : List Char} {n : Number} (h : Magnitude false cs n) : Numeral cs n
  | negative {cs : List Char} {n : Number} (h : Magnitude true cs n) : Numeral ('-' :: cs) n

/-- What follows digits does not go on with them. -/
def EndsDigits (rest : List Char) : Prop := ∀ c ∈ rest.head?, c.isDigit = false

/-- What follows a number does not go on with it. -/
def EndsNumber (rest : List Char) : Prop :=
  ∀ c ∈ rest.head?, c.isDigit = false ∧ c ≠ '.' ∧ c ≠ 'e' ∧ c ≠ 'E'

theorem EndsNumber.endsDigits (h : EndsNumber rest) : EndsDigits rest := fun c hc => (h c hc).1

theorem endsDigits_cons (hc : c.isDigit = false) (cs : List Char) : EndsDigits (c :: cs) := by
  rintro _ ⟨⟩
  exact hc

theorem digits_append (hcs : ∀ c ∈ cs, c.isDigit) (hrest : EndsDigits rest) :
    digits (cs ++ rest) = (cs.map fun c => c.toNat - 48, rest) := by
  induction cs with
  | nil =>
    cases rest with
    | nil => rfl
    | cons c rest =>
      have hc : digit? c = none := if_neg (by simp [hrest c rfl])
      rw [List.nil_append, digits, hc]
      rfl
  | cons c cs ih =>
    rw [List.forall_mem_cons] at hcs
    have hc : digit? c = some (c.toNat - 48) := if_pos hcs.1
    rw [List.cons_append, digits, hc, ih hcs.2]
    rfl

namespace DigitRow

variable {ds : List Nat}

theorem digits (h : DigitRow cs ds) (hrest : EndsDigits rest) :
    digits (cs ++ rest) = (ds, rest) := by
  rw [digits_append h.isDigit hrest, h.values]

theorem values_ne_nil (h : DigitRow cs ds) : ds ≠ [] := by
  rw [h.values]
  exact mt List.map_eq_nil_iff.mp h.ne_nil

theorem exists_cons (h : DigitRow cs ds) : ∃ c t, cs = c :: t ∧ c.isDigit := by
  obtain ⟨c, t, rfl⟩ := List.exists_cons_of_ne_nil h.ne_nil
  exact ⟨c, t, rfl, h.isDigit c List.mem_cons_self⟩

end DigitRow

/-! ### What is scanned -/

theorem Fraction.scanFraction {fraction : Option (List Nat)} (h : Fraction cs fraction)
    (hrest : EndsDigits rest) (hpoint : ∀ c ∈ rest.head?, c ≠ '.') :
    Number.scanFraction (cs ++ rest) = some (fraction, rest) := by
  cases h with
  | none =>
    unfold Number.scanFraction
    split
    next heq =>
      rw [List.nil_append] at heq
      subst heq
      exact (hpoint _ rfl rfl).elim
    next => rfl
  | digits h =>
    rw [List.cons_append, Number.scanFraction, h.digits hrest]
    split
    next heq => exact (h.values_ne_nil (Prod.mk.inj heq).1).elim
    next heq =>
      obtain ⟨rfl, rfl⟩ := Prod.mk.inj heq
      rfl

theorem DigitRow.scanPower {ds : List Nat} (h : DigitRow cs ds) (hrest : EndsDigits rest)
    (isNegative : Bool) :
    Number.scanPower isNegative (cs ++ rest) =
      some (some (if isNegative then -(ofDigits ds : Int) else (ofDigits ds : Int)), rest) := by
  unfold Number.scanPower
  rw [h.digits hrest]
  split
  next heq => exact (h.values_ne_nil (Prod.mk.inj heq).1).elim
  next heq =>
    obtain ⟨rfl, rfl⟩ := Prod.mk.inj heq
    rfl

theorem Exponent.scanExponent {exponent : Option Int} (h : Exponent cs exponent)
    (hrest : EndsNumber rest) : Number.scanExponent (cs ++ rest) = some (exponent, rest) := by
  cases h with
  | none =>
    cases rest with
    | nil => rfl
    | cons c rest =>
      obtain ⟨-, -, he, hE⟩ := hrest c rfl
      simp [Number.scanExponent, he, hE]
  | digits he h =>
    obtain ⟨c, t, rfl, hc⟩ := h.exists_cons
    -- the first digit is no sign
    have hsign : c ≠ '+' ∧ c ≠ '-' := by
      constructor <;> rintro rfl <;> cases hc
    have hpower := h.scanPower hrest.endsDigits false
    simpa [Number.scanExponent, he, hsign] using hpower
  | plus he h =>
    have hpower := h.scanPower hrest.endsDigits false
    simpa [Number.scanExponent, he] using hpower
  | minus he h =>
    have hpower := h.scanPower hrest.endsDigits true
    simpa [Number.scanExponent, he] using hpower

/-- Neither digits nor a point go on behind a number or with its exponent. -/
theorem Exponent.endsDigits {exponent : Option Int} (h : Exponent cs exponent)
    (hrest : EndsNumber rest) :
    EndsDigits (cs ++ rest) ∧ ∀ c ∈ (cs ++ rest).head?, c ≠ '.' := by
  cases h with
  | none => exact ⟨hrest.endsDigits, fun c hc => (hrest c hc).2.1⟩
  | digits he _ | plus he _ | minus he _ =>
    constructor <;> rintro _ ⟨⟩ <;> rcases he with rfl | rfl <;> decide

theorem Fraction.endsDigits {fraction : Option (List Nat)} (h : Fraction cs fraction)
    (hrest : EndsDigits rest) : EndsDigits (cs ++ rest) := by
  cases h with
  | none => exact hrest
  | digits _ => exact endsDigits_cons (by decide) _

/-- A number is scanned from behind its sign. -/
theorem Magnitude.scanUnsigned {isNegative : Bool} {n : Number} (h : Magnitude isNegative cs n)
    (hrest : EndsNumber rest) :
    Number.scanUnsigned isNegative (cs ++ rest) = some (n, rest) := by
  obtain ⟨hwhole, hzero, hfraction, hexponent⟩ := h
  -- each part is scanned up to the next one, and the last one up to the rest
  obtain ⟨hends, hpoint⟩ := hexponent.endsDigits hrest
  rw [List.append_assoc, List.append_assoc, Number.scanUnsigned,
    hwhole.digits (hfraction.endsDigits hends)]
  split
  next heq => exact (hwhole.values_ne_nil (Prod.mk.inj heq).1).elim
  next heq => cases hzero _ (Prod.mk.inj heq).1
  next heq =>
    obtain ⟨rfl, rfl⟩ := Prod.mk.inj heq
    rw [hfraction.scanFraction hends hpoint]
    simp only [Option.bind_eq_bind, Option.bind_some]
    rw [hexponent.scanExponent hrest]
    rfl

/-- A number starts with a digit or with the sign. -/
theorem Numeral.exists_cons {n : Number} (h : Numeral cs n) :
    ∃ c t, cs = c :: t ∧ (c.isDigit ∨ c = '-') := by
  cases h with
  | unsigned h =>
    obtain ⟨hwhole, -, -, -⟩ := h
    obtain ⟨c, t, rfl, hc⟩ := hwhole.exists_cons
    exact ⟨c, _, rfl, .inl hc⟩
  | negative _ => exact ⟨'-', _, rfl, .inr rfl⟩

/-- A number is scanned up to its end. -/
theorem Numeral.scan {n : Number} (h : Numeral cs n) (hrest : EndsNumber rest) :
    Number.scan (cs ++ rest) = some (n, rest) := by
  cases h with
  | unsigned h =>
    have hunsigned := h.scanUnsigned hrest
    obtain ⟨hwhole, -, -, -⟩ := h
    obtain ⟨c, t, rfl, hc⟩ := hwhole.exists_cons
    rw [← hunsigned]
    unfold Number.scan
    split
    next heq =>
      obtain rfl := (List.cons.inj heq).1
      cases hc
    next => rfl
  | negative h => exact h.scanUnsigned hrest

/-! ### Digits that are written -/

theorem ofDigits_map (cs : List Char) :
    ofDigits (cs.map fun c => c.toNat - 48) = Nat.ofDigitChars 10 cs 0 := by
  rw [ofDigits, List.foldl_map]
  rfl

theorem eq_zero_of_isDigit (hc : c.isDigit) (h : c.toNat - 48 = 0) : c = '0' := by
  have hrange : 48 ≤ c.toNat ∧ c.toNat ≤ 57 := by
    simpa [Char.isDigit, UInt32.le_iff_toNat_le] using hc
  exact Char.toNat_inj.mp (show c.toNat = 48 by omega)

theorem digitChar_ne_zero (hn : n < 10) (h : 0 < n) : n.digitChar ≠ '0' := by
  revert n
  decide

/-- Only zero starts with a zero. -/
theorem head_toDigits_ne_zero (h : 0 < n) :
    (Nat.toDigits 10 n).head Nat.toDigits_ne_nil ≠ '0' := by
  induction n using Nat.strongRecOn with
  | ind n ih =>
    by_cases hn : n < 10
    · simp only [Nat.toDigits_of_lt_base hn]
      exact digitChar_ne_zero hn h
    · simp only [Nat.toDigits_of_base_le (show 1 < 10 by decide) (Nat.not_lt.mp hn)]
      rw [List.head_append_of_ne_nil Nat.toDigits_ne_nil]
      exact ih (n / 10) (by omega) (by omega)

/-- Decimal digits are a number, if it is not too large. -/
theorem numeral_toDigits (hn : n < Nat.pow 2 64) : Numeral (Nat.toDigits 10 n) (.natural n) := by
  have hdigits : ∀ c ∈ Nat.toDigits 10 n, c.isDigit := fun c =>
    Nat.isDigit_of_mem_toDigits (by decide) (by decide)
  have hvalue : ofDigits ((Nat.toDigits 10 n).map fun c => c.toNat - 48) = n := by
    rw [ofDigits_map, Nat.ofDigitChars_ten_toDigits]
  have hzero : ∀ ds, ((Nat.toDigits 10 n).map fun c => c.toNat - 48) = 0 :: ds → ds = [] := by
    intro ds hds
    rcases Nat.eq_zero_or_pos n with rfl | hpos
    · rw [Nat.toDigits_zero] at hds
      exact (List.cons.inj hds).2.symm
    · obtain ⟨c, cs, hcs⟩ := List.exists_cons_of_ne_nil (Nat.toDigits_ne_nil (n := n) (b := 10))
      have hc : c.isDigit := hdigits c (by rw [hcs]; exact List.mem_cons_self)
      have hhead := head_toDigits_ne_zero hpos
      simp only [hcs, List.map_cons, List.cons.injEq, List.head_cons] at hds hhead
      exact (hhead (eq_zero_of_isDigit hc hds.1)).elim
  have hparts : Number.ofParts false ((Nat.toDigits 10 n).map fun c => c.toNat - 48) none none =
      .natural n := by
    rw [Number.ofParts, hvalue]
    exact if_pos ⟨rfl, rfl, hn⟩
  have h : Magnitude false (Nat.toDigits 10 n ++ ([] ++ [])) _ :=
    .mk ⟨Nat.toDigits_ne_nil, hdigits, rfl⟩ hzero .none .none
  rw [hparts, List.append_nil, List.append_nil] at h
  exact .unsigned h

end Json

end Delegation
