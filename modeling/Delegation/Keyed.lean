/-
# Collections ordered by a key

Sets of names, access control lists, attribute tables and catalogs are one kind of
collection: finitely many elements, at most one for each key, listed in ascending order of
their keys.  `Keyed key` is that collection, and its order is part of the type, so two
collections are equal exactly when they list the same elements.

## Key constructions

* `Keyed` — a list that is strictly ascending by `key`.
* `Keyed.insert` — adds an element and replaces the one that had its key.
* `Keyed.ofList` — inserts from left to right, so the last element with a key stays.
* `NameSet` — a set of texts, ordered by code points.

## Key results

* `Keyed.mem_insert`, `Keyed.get?_insert`, `Keyed.get?_erase` — what each operation does.
* `Keyed.get?_foldl_insert` — of the elements inserted under one key the last one is kept.
* `Keyed.ext_get?` — a collection is determined by its look-ups.
* `Keyed.erase_insert` — an element that is inserted and erased again leaves no trace.
* `Keyed.mem_foldl_insert` — the elements after insertions.
* `Keyed.mem_keys_foldl_insert`, `Keyed.ext_keys` — the keys after insertions, and listings of keys
  that are equal because the keys are the same.
* `Keyed.ofList_toList` — a collection is rebuilt from its own listing.
-/
import Delegation.Order

namespace Delegation

open Std

/-- A finite collection with at most one element for each key, in ascending order of keys. -/
@[ext]
structure Keyed {α κ : Type} [Ord κ] (key : α → κ) where
  /-- The elements in ascending order. -/
  toList : List α
  /-- Each key is below the keys that follow it. -/
  ascending : toList.Pairwise fun a b => compare (key a) (key b) = .lt

namespace Keyed

variable {α κ : Type} [Ord κ] {key : α → κ}

instance [DecidableEq α] : DecidableEq (Keyed key) := fun a b =>
  decidable_of_iff (a.toList = b.toList) Keyed.ext_iff.symm

/-! ## Operations -/

/-- The collection without elements. -/
def empty : Keyed key := ⟨[], .nil⟩

instance : EmptyCollection (Keyed key) := ⟨empty⟩

instance : Inhabited (Keyed key) := ⟨empty⟩

/-- The number of elements. -/
def size (s : Keyed key) : Nat := s.toList.length

/-- Whether there is no element. -/
def isEmpty (s : Keyed key) : Bool := s.toList.isEmpty

/-- The keys in ascending order. -/
def keys (s : Keyed key) : List κ := s.toList.map key

/-- The element with the given key. -/
def get? [DecidableEq κ] (s : Keyed key) (k : κ) : Option α :=
  s.toList.find? fun a => key a = k

/-- Whether an element has the given key. -/
def contains [DecidableEq κ] (s : Keyed key) (k : κ) : Bool := (s.get? k).isSome

/-- The elements that satisfy `p`. -/
def filter (p : α → Bool) (s : Keyed key) : Keyed key :=
  ⟨s.toList.filter p, s.ascending.sublist List.filter_sublist⟩

/-- The collection without the element that has the given key. -/
def erase [DecidableEq κ] (s : Keyed key) (k : κ) : Keyed key :=
  s.filter fun a => key a ≠ k

/-- Puts `x` at its place in an ascending list, over the element with the same key. -/
def insertInto (key : α → κ) (x : α) : List α → List α
  | [] => [x]
  | y :: ys =>
    match compare (key x) (key y) with
    | .lt => x :: y :: ys
    | .eq => x :: ys
    | .gt => y :: insertInto key x ys

variable [TransOrd κ] [LawfulEqOrd κ]

omit [TransOrd κ] in
/-- Ordered keys differ. -/
theorem ne_of_compare {k k' : κ} {o : Ordering} (h : compare k k' = o) (ho : o ≠ .eq) :
    k ≠ k' := by
  rintro rfl
  exact ho (h ▸ ReflCmp.compare_self)

omit [TransOrd κ] in
/-- A strictly ascending list repeats nothing. -/
theorem nodup_of_ascending {f : α → κ} {l : List α}
    (h : l.Pairwise fun a b => compare (f a) (f b) = .lt) : l.Nodup :=
  h.imp fun hab e => ne_of_compare hab (by decide) (congrArg f e)

omit [TransOrd κ] [LawfulEqOrd κ] in
theorem mem_of_mem_insertInto {x y : α} {l : List α} (h : y ∈ insertInto key x l) :
    y = x ∨ y ∈ l := by
  induction l with
  | nil => simpa [insertInto] using h
  | cons z zs ih =>
    rw [insertInto] at h
    split at h
    · simpa using h
    · rcases List.mem_cons.mp h with h | h <;> simp [h]
    · rcases List.mem_cons.mp h with h | h
      · simp [h]
      · rcases ih h with h | h <;> simp [h]

theorem pairwise_insertInto (x : α) {l : List α}
    (h : l.Pairwise fun a b => compare (key a) (key b) = .lt) :
    (insertInto key x l).Pairwise fun a b => compare (key a) (key b) = .lt := by
  induction l with
  | nil => simp [insertInto]
  | cons y ys ih =>
    have hy {a : α} (ha : a ∈ ys) := List.rel_of_pairwise_cons h ha
    rw [insertInto]
    split
    next hxy =>
      refine h.cons fun a ha => ?_
      rcases List.mem_cons.mp ha with rfl | ha
      · exact hxy
      · exact TransCmp.lt_trans hxy (hy ha)
    next hxy =>
      have hk : key x = key y := LawfulEqCmp.eq_of_compare hxy
      exact h.of_cons.cons fun a ha => hk ▸ hy ha
    next hxy =>
      refine (ih h.of_cons).cons fun a ha => ?_
      rcases mem_of_mem_insertInto ha with rfl | ha
      · exact OrientedCmp.lt_of_gt hxy
      · exact hy ha

/-- Adds an element; an element that had the same key is replaced. -/
def insert (s : Keyed key) (x : α) : Keyed key :=
  ⟨insertInto key x s.toList, pairwise_insertInto x s.ascending⟩

/-- Inserts the elements of a list in order, so the last one with a key stays. -/
def ofList (key : α → κ) (xs : List α) : Keyed key := xs.foldl insert empty

/-! ## Elements and keys -/

omit [TransOrd κ] [LawfulEqOrd κ] in
@[simp] theorem toList_empty : (empty : Keyed key).toList = [] := rfl

omit [TransOrd κ] [LawfulEqOrd κ] in
@[simp] theorem mem_toList_filter {p : α → Bool} {s : Keyed key} {a : α} :
    a ∈ (s.filter p).toList ↔ a ∈ s.toList ∧ p a := List.mem_filter

omit [TransOrd κ] in
/-- Two elements of a collection with one key are the same element. -/
theorem eq_of_key_eq (s : Keyed key) {a b : α} (ha : a ∈ s.toList) (hb : b ∈ s.toList)
    (h : key a = key b) : a = b := by
  have hp := s.ascending
  generalize s.toList = l at ha hb hp
  induction l with
  | nil => simp at ha
  | cons x xs ih =>
    have hx {c : α} (hc : c ∈ xs) := List.rel_of_pairwise_cons hp hc
    have irrefl {c : α} (hc : c ∈ xs) : key x ≠ key c := ne_of_compare (hx hc) (by decide)
    rcases List.mem_cons.mp ha with ha | ha <;> rcases List.mem_cons.mp hb with hb | hb
    · rw [ha, hb]
    · exact (irrefl hb (ha ▸ h)).elim
    · exact (irrefl ha (hb ▸ h.symm)).elim
    · exact ih ha hb hp.of_cons

/-- Inserting keeps the elements with other keys and adds the new element. -/
@[simp] theorem mem_insert {s : Keyed key} {x a : α} :
    a ∈ (s.insert x).toList ↔ a = x ∨ a ∈ s.toList ∧ key a ≠ key x := by
  have hp := s.ascending
  change a ∈ insertInto key x s.toList ↔ _
  generalize s.toList = l at hp
  induction l with
  | nil => simp [insertInto]
  | cons y ys ih =>
    have hy {b : α} (hb : b ∈ ys) := List.rel_of_pairwise_cons hp hb
    have below {b : α} (hb : compare (key x) (key b) = .lt) : key b ≠ key x :=
      (ne_of_compare hb (by decide)).symm
    rw [insertInto]
    split
    next hxy =>
      have hall : ∀ b ∈ y :: ys, key b ≠ key x := fun b hb => below <| by
        rcases List.mem_cons.mp hb with rfl | hb
        · exact hxy
        · exact TransCmp.lt_trans hxy (hy hb)
      rw [List.mem_cons]
      exact or_congr Iff.rfl ⟨fun h => ⟨h, hall a h⟩, And.left⟩
    next hxy =>
      have hk : key x = key y := LawfulEqCmp.eq_of_compare hxy
      have hall : ∀ b ∈ ys, key b ≠ key x := fun b hb => below (hk ▸ hy hb)
      rw [List.mem_cons, List.mem_cons]
      refine or_congr Iff.rfl ⟨fun h => ⟨.inr h, hall a h⟩, ?_⟩
      rintro ⟨rfl | h, hne⟩
      · exact (hne hk.symm).elim
      · exact h
    next hxy =>
      have hne : key y ≠ key x := (ne_of_compare hxy (by decide)).symm
      rw [List.mem_cons, ih hp.of_cons, List.mem_cons]
      constructor
      · rintro (rfl | rfl | ⟨h, h'⟩)
        · exact .inr ⟨.inl rfl, hne⟩
        · exact .inl rfl
        · exact .inr ⟨.inr h, h'⟩
      · rintro (rfl | ⟨rfl | h, h'⟩)
        · exact .inr (.inl rfl)
        · exact .inl rfl
        · exact .inr (.inr ⟨h, h'⟩)

/-! ## Look-ups -/

section Lookup

variable [DecidableEq κ]

omit [TransOrd κ] in
theorem get?_eq_some_iff {s : Keyed key} {k : κ} {a : α} :
    s.get? k = some a ↔ a ∈ s.toList ∧ key a = k := by
  constructor
  · intro h
    exact ⟨List.mem_of_find?_eq_some h, by simpa using List.find?_some h⟩
  · rintro ⟨ha, rfl⟩
    cases hf : s.get? (key a) with
    | none =>
      have := List.find?_eq_none.mp hf a ha
      simp at this
    | some b =>
      have hb : b ∈ s.toList := List.mem_of_find?_eq_some hf
      have hk : key b = key a := by simpa using List.find?_some hf
      rw [s.eq_of_key_eq hb ha hk]

omit [TransOrd κ] [LawfulEqOrd κ] in
theorem get?_eq_none_iff {s : Keyed key} {k : κ} :
    s.get? k = none ↔ ∀ a ∈ s.toList, key a ≠ k := by
  simp [get?, List.find?_eq_none]

omit [TransOrd κ] [LawfulEqOrd κ] in
@[simp] theorem get?_empty (k : κ) : (empty : Keyed key).get? k = none := rfl

theorem get?_insert (s : Keyed key) (x : α) (k : κ) :
    (s.insert x).get? k = if key x = k then some x else s.get? k := by
  apply Option.ext
  intro a
  rw [get?_eq_some_iff, mem_insert]
  split
  next h =>
    subst h
    constructor
    · rintro ⟨rfl | ⟨-, hne⟩, hk⟩
      · rfl
      · exact (hne hk).elim
    · intro h
      obtain rfl : x = a := Option.some.inj h
      exact ⟨.inl rfl, rfl⟩
  next h =>
    rw [get?_eq_some_iff]
    constructor
    · rintro ⟨rfl | ⟨ha, -⟩, hk⟩
      · exact (h hk).elim
      · exact ⟨ha, hk⟩
    · rintro ⟨ha, rfl⟩
      exact ⟨.inr ⟨ha, fun e => h e.symm⟩, rfl⟩

/-- Of the elements inserted under one key the last one is kept. -/
theorem get?_foldl_insert (s : Keyed key) (xs : List α) (k : κ) :
    (xs.foldl insert s).get? k = (xs.reverse.find? fun a => key a = k).or (s.get? k) := by
  induction xs generalizing s with
  | nil => rfl
  | cons x xs ih =>
    rw [List.foldl_cons, ih, get?_insert, List.reverse_cons, List.find?_append, Option.or_assoc]
    congr 1
    by_cases hk : key x = k <;> simp [hk]

/-- Of the elements listed under one key the last one is kept. -/
theorem get?_ofList (xs : List α) (k : κ) :
    (ofList key xs).get? k = xs.reverse.find? fun a => key a = k := by
  rw [ofList, get?_foldl_insert, get?_empty, Option.or_none]

omit [TransOrd κ] [LawfulEqOrd κ] in
theorem mem_erase {s : Keyed key} {k : κ} {a : α} :
    a ∈ (s.erase k).toList ↔ a ∈ s.toList ∧ key a ≠ k := by
  rw [erase, mem_toList_filter, decide_eq_true_eq]

omit [TransOrd κ] in
theorem get?_erase (s : Keyed key) (k k' : κ) :
    (s.erase k).get? k' = if k = k' then none else s.get? k' := by
  apply Option.ext
  intro a
  rw [get?_eq_some_iff, mem_erase]
  split
  next h => subst h; simp
  next h =>
    rw [get?_eq_some_iff]
    constructor
    · rintro ⟨⟨ha, -⟩, hk⟩; exact ⟨ha, hk⟩
    · rintro ⟨ha, rfl⟩; exact ⟨⟨ha, fun e => h e.symm⟩, rfl⟩

omit [DecidableEq κ] [TransOrd κ] in
/-- No element is listed twice. -/
theorem nodup (s : Keyed key) : s.toList.Nodup := nodup_of_ascending s.ascending

omit [DecidableEq κ] in
/-- Two collections with the same elements are equal. -/
theorem ext_mem {s t : Keyed key} (h : ∀ a, a ∈ s.toList ↔ a ∈ t.toList) : s = t := by
  have antisymm (a b : α) (hab : compare (key a) (key b) = .lt)
      (hba : compare (key b) (key a) = .lt) : a = b :=
    absurd (OrientedCmp.gt_of_lt hab) (by rw [hba]; decide)
  exact Keyed.ext (List.Perm.eq_of_pairwise (fun a b _ _ => antisymm a b) s.ascending t.ascending
    ((List.perm_ext_iff_of_nodup s.nodup t.nodup).mpr h))

/-- A collection is determined by its look-ups. -/
theorem ext_get? {s t : Keyed key} (h : ∀ k, s.get? k = t.get? k) : s = t :=
  ext_mem fun a => by
    have := h (key a)
    constructor
    · intro ha
      exact (get?_eq_some_iff.mp (this ▸ get?_eq_some_iff.mpr ⟨ha, rfl⟩)).1
    · intro ha
      exact (get?_eq_some_iff.mp (this ▸ get?_eq_some_iff.mpr ⟨ha, rfl⟩)).1

/-- Erasing a key that was just inserted leaves what erasing it before would have left. -/
theorem erase_insert (s : Keyed key) (x : α) : (s.insert x).erase (key x) = s.erase (key x) :=
  ext_get? fun k => by
    rw [get?_erase, get?_erase, get?_insert]
    split <;> rfl

theorem insert_erase (s : Keyed key) (x : α) : (s.erase (key x)).insert x = s.insert x :=
  ext_get? fun k => by
    rw [get?_insert, get?_insert, get?_erase]
    split <;> rfl

theorem erase_erase (s : Keyed key) (k : κ) : (s.erase k).erase k = s.erase k :=
  ext_get? fun k' => by
    rw [get?_erase, get?_erase]
    split <;> rfl

omit [TransOrd κ] in
/-- A collection contains a key iff it lists it. -/
theorem contains_iff {s : Keyed key} {k : κ} : s.contains k ↔ k ∈ s.keys := by
  unfold contains keys
  rw [Option.isSome_iff_exists, List.mem_map]
  exact exists_congr fun a => get?_eq_some_iff

end Lookup

/-! ## Keys -/

/-- The keys of a set are its elements. -/
@[simp] theorem keys_id {κ : Type} [Ord κ] (s : Keyed (id : κ → κ)) : s.keys = s.toList :=
  List.map_id _

/-- Inserting an element adds its key. -/
theorem mem_keys_insert {s : Keyed key} {x : α} {k : κ} :
    k ∈ (s.insert x).keys ↔ k = key x ∨ k ∈ s.keys := by
  unfold keys
  rw [List.mem_map, List.mem_map]
  constructor
  · rintro ⟨a, ha, rfl⟩
    rcases mem_insert.mp ha with rfl | ⟨ha, -⟩
    · exact .inl rfl
    · exact .inr ⟨a, ha, rfl⟩
  · rintro (rfl | ⟨a, ha, rfl⟩)
    · exact ⟨x, mem_insert.mpr (.inl rfl), rfl⟩
    · by_cases hk : key a = key x
      · exact ⟨x, mem_insert.mpr (.inl rfl), hk.symm⟩
      · exact ⟨a, mem_insert.mpr (.inr ⟨ha, hk⟩), rfl⟩

/-- Inserting elements adds their keys. -/
theorem mem_keys_foldl_insert {s : Keyed key} {xs : List α} {k : κ} :
    k ∈ (xs.foldl insert s).keys ↔ k ∈ s.keys ∨ k ∈ xs.map key := by
  induction xs generalizing s with
  | nil => simp
  | cons x xs ih =>
    rw [List.foldl_cons, ih, mem_keys_insert, List.map_cons, List.mem_cons,
      or_comm (a := k = key x), or_assoc]

/-- A collection has the keys of the elements from which it is made. -/
theorem mem_keys_ofList {xs : List α} {k : κ} : k ∈ (ofList key xs).keys ↔ k ∈ xs.map key := by
  rw [ofList, mem_keys_foldl_insert]
  exact or_iff_right List.not_mem_nil

section Origin

variable [DecidableEq κ] {a : α}

/-- The elements of a collection are among those from which it is made. -/
theorem mem_of_mem_ofList {xs : List α} (h : a ∈ (ofList key xs).toList) : a ∈ xs := by
  have hfind := get?_eq_some_iff.mpr ⟨h, rfl⟩
  rw [get?_ofList] at hfind
  exact List.mem_reverse.mp (List.mem_of_find?_eq_some hfind)

/-- Elements with one key for each name are all kept, however often a name is repeated. -/
theorem mem_ofList_map {f : κ → α} (hf : ∀ k, key (f k) = k) {ks : List κ} :
    a ∈ (ofList key (ks.map f)).toList ↔ key a ∈ ks ∧ a = f (key a) := by
  have hmade {b : α} (hb : b ∈ (ofList key (ks.map f)).toList) : key b ∈ ks ∧ b = f (key b) := by
    obtain ⟨k, hk, rfl⟩ := List.mem_map.mp (mem_of_mem_ofList hb)
    rw [hf]
    exact ⟨hk, rfl⟩
  refine ⟨hmade, fun ⟨hk, ha⟩ => ?_⟩
  have hkey : key a ∈ (ofList key (ks.map f)).keys := by
    rw [mem_keys_ofList, ha, hf]
    exact List.mem_map.mpr ⟨_, List.mem_map_of_mem hk, hf _⟩
  obtain ⟨b, hb, hba⟩ := List.mem_map.mp hkey
  rw [ha, ← hba, ← (hmade hb).2]
  exact hb

/-- Elements that are inserted replace those with their keys. -/
theorem mem_foldl_insert {s : Keyed key} {xs : List α} :
    a ∈ (xs.foldl insert s).toList ↔
      a ∈ (ofList key xs).toList ∨ a ∈ s.toList ∧ key a ∉ xs.map key := by
  have hmem (t : Keyed key) : a ∈ t.toList ↔ t.get? (key a) = some a := by
    rw [get?_eq_some_iff, and_iff_left rfl]
  have hnone : (ofList key xs).get? (key a) = none ↔ key a ∉ xs.map key := by
    rw [get?_eq_none_iff, ← mem_keys_ofList, keys, List.mem_map, not_exists]
    exact forall_congr' fun _ => not_and.symm
  rw [hmem, hmem, hmem, get?_foldl_insert, ← get?_ofList, Option.or_eq_some_iff, hnone, and_comm]

end Origin

omit [TransOrd κ] [LawfulEqOrd κ] in
/-- The keys are listed in ascending order. -/
theorem pairwise_keys (s : Keyed key) : s.keys.Pairwise fun k k' => compare k k' = .lt :=
  List.pairwise_map.mpr s.ascending

/-- Collections of whatever elements list the same keys if each lists the keys of the other. -/
theorem ext_keys {β : Type} {key' : β → κ} {s : Keyed key} {t : Keyed key'}
    (h : ∀ k, k ∈ s.keys ↔ k ∈ t.keys) : s.keys = t.keys := by
  let keySet {γ : Type} {key : γ → κ} (s : Keyed key) : Keyed (id : κ → κ) :=
    ⟨s.keys, s.pairwise_keys⟩
  exact congrArg toList (ext_mem (s := keySet s) (t := keySet t) h)

/-! ## Rebuilding from a listing -/

/-- An element above all others is inserted at the end. -/
theorem toList_insert_of_forall_lt {s : Keyed key} {x : α}
    (h : ∀ a ∈ s.toList, compare (key a) (key x) = .lt) :
    (s.insert x).toList = s.toList ++ [x] := by
  change insertInto key x s.toList = _
  generalize s.toList = l at h
  induction l with
  | nil => rfl
  | cons y ys ih =>
    have hy : compare (key x) (key y) = .gt := OrientedCmp.gt_of_lt (h y (by simp))
    simp [insertInto, hy, ih fun a ha => h a (by simp [ha])]

theorem toList_foldl_insert (s : Keyed key) {xs : List α}
    (h : (s.toList ++ xs).Pairwise fun a b => compare (key a) (key b) = .lt) :
    (xs.foldl insert s).toList = s.toList ++ xs := by
  induction xs generalizing s with
  | nil => simp
  | cons x xs ih =>
    have hs : (s.insert x).toList = s.toList ++ [x] := by
      apply toList_insert_of_forall_lt
      intro a ha
      exact (List.pairwise_append.mp h).2.2 a ha x (by simp)
    rw [List.foldl_cons, ih (s.insert x) (by simpa [hs] using h), hs, List.append_assoc]
    rfl

/-- An ascending list is the listing of the collection made from it. -/
theorem toList_ofList {xs : List α}
    (h : xs.Pairwise fun a b => compare (key a) (key b) = .lt) :
    (ofList key xs).toList = xs := by
  simpa [ofList] using toList_foldl_insert empty (by simpa using h)

/-- A collection is rebuilt from its own listing. -/
@[simp] theorem ofList_toList (s : Keyed key) : ofList key s.toList = s :=
  Keyed.ext (toList_ofList s.ascending)

end Keyed

/-- A set of names. -/
abbrev NameSet : Type := Keyed (id : String → String)

namespace NameSet

/-- The set of the given names. -/
abbrev ofList (names : List String) : NameSet := Keyed.ofList id names

variable {s : NameSet} {names : List String} {n m : String}

theorem mem_insert : n ∈ (s.insert m).toList ↔ n = m ∨ n ∈ s.toList := by
  rw [← Keyed.keys_id, ← Keyed.keys_id, Keyed.mem_keys_insert]
  rfl

theorem mem_foldl_insert :
    n ∈ (names.foldl Keyed.insert s).toList ↔ n ∈ s.toList ∨ n ∈ names := by
  rw [← Keyed.keys_id, ← Keyed.keys_id, Keyed.mem_keys_foldl_insert, List.map_id]

theorem mem_ofList : n ∈ (ofList names).toList ↔ n ∈ names := by
  rw [← Keyed.keys_id, Keyed.mem_keys_ofList, List.map_id]

end NameSet

end Delegation
