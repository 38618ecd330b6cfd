/-
# Readers of CBOR and the bytes they read

A reader that takes a value from certain bytes takes the same value when other bytes follow, and
leaves these.  Stated so, what is known of the parts of a reader can be put together: a reader that
binds two others reads the bytes of the first and then those of the second.

## Key constructions

* `Cbor.Reads` — a reader takes a value from bytes, whatever follows them.
* `Cbor.Leads` — a head stands at the front of bytes.
* `Cbor.Steps` — the states through which a list of items leads.

## Key results

* `Cbor.reads_headBytes` — a head is read from its shortest bytes.
* `Cbor.reads_readName`, `Cbor.reads_readText` — names and texts are read.
* `Cbor.Steps.rows` — a row is read block by block.
* `Cbor.reads_readItems` — a list is read item by item.
-/
import Delegation.Codec.Cbor.Form
import Delegation.Proofs.NameList

namespace Delegation.Cbor

variable {α β γ σ τ : Type} {a : α} {b : β} {bs cs : List UInt8} {read : Reader α}
  {next : α → Reader β} {head : Head} {levels : Nat}

/-- From the bytes the reader takes the value, and it leaves what follows them. -/
def Reads (read : Reader α) (bytes : List UInt8) (a : α) : Prop :=
  ∀ rest, read (bytes ++ rest) = .ok (a, rest)

/-- What is read first decides what is read next. -/
theorem bind_of_ok {input rest : List UInt8} (h : read input = .ok (a, rest)) :
    (read >>= next) input = next a rest := by
  show (read input >>= fun p => next p.1 p.2) = _
  rw [h]
  rfl

/-- The input may be looked at before anything is read. -/
theorem get_bind {next : List UInt8 → Reader β} (input : List UInt8) :
    (get >>= next) input = next input input := rfl

theorem reads_pure (a : α) : Reads (pure a) [] a := fun _ => rfl

theorem Reads.bind (h : Reads read bs a) (hnext : Reads (next a) cs b) :
    Reads (read >>= next) (bs ++ cs) b := by
  intro rest
  rw [List.append_assoc, bind_of_ok (h _)]
  exact hnext rest

/-- After a value was read nothing more may be needed. -/
theorem Reads.bind_nil (h : Reads read bs a) (hnext : Reads (next a) [] b) :
    Reads (read >>= next) bs b := by
  have hbind := h.bind hnext
  rwa [List.append_nil] at hbind

theorem Reads.map (f : α → β) (h : Reads read bs a) : Reads (f <$> read) bs (f a) := by
  intro rest
  show (read (bs ++ rest) >>= fun p => pure (f p.1, p.2)) = _
  rw [h]
  rfl

theorem Reads.nested {read : Nat → Reader α} (h : Reads (read levels) bs a) :
    Reads (Cbor.nested read (levels + 1)) bs a := h

theorem reads_lift {e : Except Fault α} (h : e = .ok a) : Reads (liftM e) [] a := by
  subst h
  intro rest
  rfl

theorem reads_take (bytes : List UInt8) : Reads (take bytes.length) bytes bytes := by
  intro rest
  have hlength : bytes.length ≤ (bytes ++ rest).length := by simp
  rw [take, if_pos hlength, List.splitAt_eq, List.take_left, List.drop_left]

/-! ## Heads -/

theorem reads_pullNumber_of_lt {n : Nat} (h : n < 24) : Reads (pullNumber n) [] (some n) := by
  unfold pullNumber
  rw [if_pos h]
  exact reads_pure _

theorem reads_pullNumber_bigEndian {n k : Nat} (hk : k < 4)
    (hn : n < Nat.pow 256 (Nat.pow 2 k)) :
    Reads (pullNumber (24 + k)) (Bytes.bigEndian (Nat.pow 2 k) n) (some n) := by
  have hvalue : Bytes.ofBigEndian (Bytes.bigEndian (Nat.pow 2 k) n) = n := by
    rw [Bytes.ofBigEndian_bigEndian, Nat.mod_eq_of_lt hn]
  have htake := reads_take (Bytes.bigEndian (Nat.pow 2 k) n)
  rw [Bytes.length_bigEndian] at htake
  unfold pullNumber
  rw [if_neg (by omega), if_pos (by omega), Nat.add_sub_cancel_left]
  refine htake.bind_nil ?_
  rw [hvalue]
  exact reads_pure _

/-- The first byte of a head holds the major type and the five low bits. -/
theorem reads_pull {major low n : Nat} (hmajor : major < 8) (hlow : low < 32)
    (hnumber : Reads (pullNumber low) bs (some n))
    (hhead : Head.ofParts major low (some n) = .ok head) :
    Reads pull (UInt8.ofNat (32 * major + low) :: bs) head := by
  have hfirst : Bytes.ofBigEndian [UInt8.ofNat (32 * major + low)] = 32 * major + low := by
    simp [Bytes.ofBigEndian, Bytes.ofLittleEndian]
    omega
  have hdiv : (32 * major + low) / 32 = major := by omega
  have hmod : (32 * major + low) % 32 = low := by omega
  refine (reads_take [UInt8.ofNat (32 * major + low)]).bind ?_
  simp only [hfirst, hdiv, hmod]
  exact hnumber.bind_nil (reads_lift hhead)

/-- A head whose number fits into eight bytes is read, however many bytes the number takes. -/
theorem reads_headBytes {major n : Nat} (hmajor : major < 8) (hn : n < 2 ^ 64)
    (hhead : ∀ low, Head.ofParts major low (some n) = .ok head) :
    Reads pull (headBytes major n) head := by
  unfold headBytes
  split
  next h => exact reads_pull hmajor (by omega) (reads_pullNumber_of_lt h) (hhead _)
  split
  next h =>
    exact reads_pull hmajor (by omega) (reads_pullNumber_bigEndian (k := 0) (by omega) h) (hhead _)
  split
  next h =>
    exact reads_pull hmajor (by omega) (reads_pullNumber_bigEndian (k := 1) (by omega) h) (hhead _)
  split
  next h =>
    exact reads_pull hmajor (by omega) (reads_pullNumber_bigEndian (k := 2) (by omega) h) (hhead _)
  next =>
    exact reads_pull hmajor (by omega) (reads_pullNumber_bigEndian (k := 3) (by omega) hn) (hhead _)

theorem Reads.untagged (h : Reads pull bs head) (htag : ∀ n, head ≠ .tag n) (fuel : Nat) :
    Reads (pullUntagged (fuel + 1)) bs head := by
  refine h.bind_nil ?_
  cases head with
  | tag n => exact (htag n rfl).elim
  | _ => exact reads_pure _

/-- A head that is not a tag is the one that is wanted. -/
theorem Reads.wanted (h : Reads pull bs head) (htag : ∀ n, head ≠ .tag n) :
    Reads pullWanted bs head := fun rest => h.untagged htag (bs ++ rest).length rest

theorem reads_textHead {n : Nat} (h : n < 2 ^ 64) : Reads pull (headBytes 3 n) (.text (some n)) :=
  reads_headBytes (by decide) h fun _ => rfl

theorem reads_arrayHead {n : Nat} (h : n < 2 ^ 64) : Reads pull (headBytes 4 n) (.array (some n)) :=
  reads_headBytes (by decide) h fun _ => rfl

theorem reads_mapHead {n : Nat} (h : n < 2 ^ 64) : Reads pull (headBytes 5 n) (.map (some n)) :=
  reads_headBytes (by decide) h fun _ => rfl

/-- A simple value is its own head. -/
theorem reads_simple {n : Nat} (h : n < 24) :
    Reads pull [UInt8.ofNat (32 * 7 + n)] (.simple n) := by
  refine reads_pull (by decide) (by omega) (reads_pullNumber_of_lt h) ?_
  rw [Head.ofParts, if_pos (by omega)]

/-- The head stands at the front of the bytes. -/
def Leads (head : Head) (bytes : List UInt8) : Prop :=
  ∃ bs cs, bytes = bs ++ cs ∧ Reads pull bs head

theorem Leads.of_reads (h : Reads pull bs head) (cs : List UInt8) : Leads head (bs ++ cs) :=
  ⟨bs, cs, rfl, h⟩

theorem Leads.ne_nil {bytes : List UInt8} (h : Leads head bytes) : bytes ≠ [] := by
  obtain ⟨bs, cs, rfl, h⟩ := h
  cases bs with
  | nil => cases h []
  | cons b bs => exact List.cons_ne_nil _ _

/-- The head in front may be looked at before everything is read. -/
theorem Leads.reads_peek {next : Head → Reader β} (h : Leads head bs)
    (hnext : Reads (next head) bs b) : Reads (peek >>= next) bs b := by
  intro rest
  have hpeek : peek (bs ++ rest) = .ok (head, bs ++ rest) := by
    obtain ⟨front, back, rfl, h⟩ := h
    show (pull (front ++ back ++ rest) >>= fun p => .ok (p.1, front ++ back ++ rest)) = _
    rw [List.append_assoc, h]
    rfl
  rw [bind_of_ok hpeek]
  exact hnext rest

/-! ## Texts and names -/

theorem reads_takeText (s : String) :
    Reads (takeText (Utf8.encode s).length) (Utf8.encode s) s := by
  intro rest
  have hlength : (Utf8.encode s).length ≤ (Utf8.encode s ++ rest).length := by simp
  unfold takeText
  rw [get_bind, if_pos hlength]
  refine (reads_take (Utf8.encode s)).bind_nil ?_ rest
  rw [Utf8.decode?_encode]
  exact reads_pure s

theorem reads_readText (s : String) :
    Reads (readText (some (Utf8.encode s).length)) (Utf8.encode s) s := by
  have hpieces : Reads (pieces textLength takeText (some (Utf8.encode s).length))
      (Utf8.encode s) [s] := (reads_takeText s).bind_nil (reads_pure _)
  refine hpieces.bind_nil ?_
  have hjoin : String.join [s] = s := by simp [String.join]
  rw [hjoin]
  exact reads_pure s

theorem shortName_of_le_window {name : String} (h : (Utf8.encode name).length ≤ window) :
    ShortName name := Nat.lt_of_le_of_lt h (show window < 2 ^ 64 by decide)

theorem leads_textBytes {s : String} (h : ShortName s) :
    Leads (.text (some (Utf8.encode s).length)) (textBytes s) := .of_reads (reads_textHead h) _

theorem reads_readName {name : String} (h : (Utf8.encode name).length ≤ window) :
    Reads readName (textBytes name) (Utf8.encode name) := by
  refine ((reads_textHead (shortName_of_le_window h)).wanted (by simp)).bind ?_
  show Reads (if (Utf8.encode name).length ≤ window then
      Utf8.encode <$> takeText (Utf8.encode name).length else throw .invalidType) _ _
  rw [if_pos h]
  exact (reads_takeText name).map Utf8.encode

/-- The name of a case may stand alone. -/
theorem reads_readCaseName {name : String} (h : (Utf8.encode name).length ≤ window)
    (hlevels : 0 < levels) :
    Reads (readCaseName levels) (textBytes name) (Utf8.encode name) := by
  obtain ⟨levels, rfl⟩ := Nat.exists_eq_add_of_lt hlevels
  have hhead := (reads_textHead (shortName_of_le_window h)).wanted (by simp)
  intro rest
  have hpull : pullWanted (textBytes name ++ rest) =
      .ok (.text (some (Utf8.encode name).length), Utf8.encode name ++ rest) := by
    rw [textBytes, List.append_assoc]
    exact hhead _
  unfold readCaseName
  rw [get_bind, bind_of_ok hpull]
  exact reads_readName h rest

/-- The name of a case may be the key of a map with one entry. -/
theorem reads_readCaseName_map {name : String} (h : (Utf8.encode name).length ≤ window)
    (hlevels : 0 < levels) :
    Reads (readCaseName levels) (headBytes 5 1 ++ textBytes name) (Utf8.encode name) := by
  obtain ⟨levels, rfl⟩ := Nat.exists_eq_add_of_lt hlevels
  have hhead := (reads_mapHead (show 1 < 2 ^ 64 by decide)).wanted (by simp)
  intro rest
  unfold readCaseName
  rw [get_bind, List.append_assoc, bind_of_ok (hhead _)]
  exact reads_readName h rest

theorem reads_readByte (b : UInt8) : Reads readByte (headBytes 0 b.toNat) b := by
  have hfits : b.toNat < 2 ^ 64 := Nat.lt_trans b.toNat_lt (by decide)
  have hhead : Reads pull (headBytes 0 b.toNat) (.positive b.toNat) :=
    reads_headBytes (by decide) hfits fun _ => rfl
  refine (hhead.wanted (by simp)).bind_nil ?_
  show Reads (if b.toNat < 256 then pure (UInt8.ofNat b.toNat) else throw .invalidValue) [] b
  rw [if_pos b.toNat_lt, UInt8.ofNat_toNat]
  exact reads_pure b

/-! ## Rows -/

/-- One item after the other, each by a step, leads from one state to another. -/
inductive Steps (step : σ → β → σ → Prop) : σ → List β → σ → Prop
  | nil (s : σ) : Steps step s [] s
  | cons {s t u : σ} {b : β} {bs : List β} (h : step s b t) (hrest : Steps step t bs u) :
      Steps step s (b :: bs) u

/-- Steps of one kind are steps of another kind, if each single one is. -/
theorem Steps.map {step : σ → β → σ → Prop} {step' : τ → γ → τ → Prop} {f : σ → τ} {g : β → γ}
    {s t : σ} {items : List β} (h : Steps step s items t)
    (hstep : ∀ s, ∀ b ∈ items, ∀ t, step s b t → step' (f s) (g b) (f t)) :
    Steps step' (f s) (items.map g) (f t) := by
  induction h with
  | nil s => exact .nil _
  | cons hfirst hrest ih =>
    refine .cons (hstep _ _ List.mem_cons_self _ hfirst) (ih fun s b hb => ?_)
    exact hstep s b (List.mem_cons_of_mem _ hb)

/-- The reader for one state takes the next state from a block that is not empty. -/
def ReadsBlock (step : σ → Reader σ) (s : σ) (block : List UInt8) (t : σ) : Prop :=
  block ≠ [] ∧ Reads (step s) block t

theorem Steps.repeated {step : σ → Reader σ} {s t : σ} {blocks : List (List UInt8)}
    (h : Steps (ReadsBlock step) s blocks t) (fuel : Nat) :
    Reads (repeated step (blocks.length + fuel) (some blocks.length) s) blocks.flatten t := by
  induction h with
  | nil s => cases fuel <;> exact reads_pure s
  | cons h _ ih =>
    rw [List.length_cons, Nat.add_right_comm]
    exact h.2.bind ih

theorem Steps.length_le {step : σ → Reader σ} {s t : σ} {blocks : List (List UInt8)}
    (h : Steps (ReadsBlock step) s blocks t) : blocks.length ≤ blocks.flatten.length := by
  induction h with
  | nil s => exact Nat.le_refl 0
  | cons h _ ih =>
    have hpos := List.length_pos_iff.mpr h.1
    rw [List.flatten_cons, List.length_append, List.length_cons]
    omega

/-- A row is read block by block.  No block is empty, so there are enough tries. -/
theorem Steps.rows {step : σ → Reader σ} {s t : σ} {blocks : List (List UInt8)}
    (h : Steps (ReadsBlock step) s blocks t) :
    Reads (rows step (some blocks.length) s) blocks.flatten t := by
  intro rest
  have hlength := h.length_le
  obtain ⟨fuel, hfuel⟩ : ∃ fuel, (blocks.flatten ++ rest).length + 1 = blocks.length + fuel := by
    refine Nat.exists_eq_add_of_le ?_
    rw [List.length_append]
    omega
  show Cbor.repeated step ((blocks.flatten ++ rest).length + 1) (some blocks.length) s
    (blocks.flatten ++ rest) = _
  rw [hfuel]
  exact h.repeated fuel rest

/-- A list is read item by item. -/
theorem reads_readItems {item : Reader α} {write : α → List UInt8} {as : List α}
    (hne : ∀ a ∈ as, write a ≠ []) (h : ∀ a ∈ as, Reads item (write a) a) :
    Reads (readItems item (some as.length)) (as.flatMap write) as := by
  -- the items are collected in front of those read before, so the list is turned at the end
  have hsteps (done : List α) : Steps (ReadsBlock fun as => do return (← item) :: as) done
      (as.map write) (as.reverse ++ done) := by
    induction as generalizing done with
    | nil => exact .nil _
    | cons a as ih =>
      rw [List.forall_mem_cons] at hne h
      have hrest := ih hne.2 h.2 (a :: done)
      rw [List.reverse_cons, List.append_assoc]
      exact .cons ⟨hne.1, h.1.bind_nil (reads_pure _)⟩ hrest
  have hrows := (hsteps []).rows
  rw [List.length_map, ← List.flatMap_def] at hrows
  refine hrows.bind_nil ?_
  rw [List.append_nil, List.reverse_reverse]
  exact reads_pure as

/-- A row of a fixed length is read item by item. -/
theorem reads_readRow {item : Reader α} {write : α → List UInt8} {as : List α} {n : Nat}
    (h : ∀ a ∈ as, Reads item (write a) a) (hn : as.length = n) :
    Reads (readRow item n) (as.flatMap write) ⟨as, hn⟩ := by
  induction as generalizing n with
  | nil =>
    subst hn
    exact reads_pure _
  | cons a as ih =>
    cases n with
    | zero => cases hn
    | succ n =>
      rw [List.forall_mem_cons] at h
      exact h.1.bind ((ih h.2 (Nat.succ.inj hn)).bind_nil (reads_pure _))

end Delegation.Cbor
