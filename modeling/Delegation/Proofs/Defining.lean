/-
# Defined and decoded rights

A right is well formed if it has a name and a target type and, where it bundles others, a
constituent.  `Right.define` accepts exactly the parts of well-formed rights.  Reading a serial form
checks the layout only: every right whatsoever has one.

## Key constructions

* `Right.WellFormed` — what a definition is checked for.
* `Right.Obtained` — the rights that come from definitions, from user rights and from certain texts.

## Key results

* `Right.define_eq_ok_iff`, `Right.wellFormed_iff_define` — the checks accept well-formed rights,
  and no others.
* `Right.obtained_are_wellFormed_iff` — rights are well formed iff those that the texts spell are.
* `Right.malformed_right_is_decoded` — a text that spells a right with every flaw.
-/
import Delegation.Proofs.Json.RoundTrip
import Delegation.Document.Serial

namespace Delegation

namespace Right

variable {name description : String} {kind : RightKind} {targetTypes : List TargetType} {r : Right}

/-- The right has a name and a target type, and a constituent if it bundles others. -/
structure WellFormed (r : Right) : Prop where
  name : r.name ≠ ""
  targetTypes : r.targetTypes.toList ≠ []
  constituents : ∀ rights, r.kind = .combo rights → rights ≠ []

theorem ofList_targetTypes_eq_nil_iff :
    (Keyed.ofList (id : TargetType → TargetType) targetTypes).toList = [] ↔ targetTypes = [] := by
  have hmem (t : TargetType) : t ∈ (Keyed.ofList id targetTypes).toList ↔ t ∈ targetTypes := by
    rw [← Keyed.keys_id, Keyed.mem_keys_ofList, List.map_id]
  simp only [List.eq_nil_iff_forall_not_mem, hmem]

/-- A definition is accepted iff it makes a well-formed right. -/
theorem define_eq_ok_iff :
    define name description kind targetTypes = .ok r ↔
      r = ⟨name, description, kind, Keyed.ofList id targetTypes, false⟩ ∧ r.WellFormed := by
  unfold define
  constructor
  · intro h
    split_ifs at h with hname htypes hkind
    cases h
    refine ⟨rfl, hname, mt ofList_targetTypes_eq_nil_iff.mp htypes, ?_⟩
    rintro rights hrights rfl
    exact hkind hrights
  · rintro ⟨rfl, hname, htypes, hrights⟩
    have hkind : kind ≠ .combo [] := fun hkind => hrights [] hkind rfl
    rw [if_neg hname, if_neg (mt ofList_targetTypes_eq_nil_iff.mpr htypes), if_neg hkind]

/-- The checks accept the parts of a well-formed right again, and no others. -/
theorem wellFormed_iff_define :
    r.WellFormed ↔ define r.name r.description r.kind r.targetTypes.toList =
      .ok { r with isUserRight := false } := by
  rw [define_eq_ok_iff, Keyed.ofList_toList]
  exact ⟨fun h => ⟨rfl, h.name, h.targetTypes, h.constituents⟩,
    fun ⟨_, h⟩ => ⟨h.name, h.targetTypes, h.constituents⟩⟩

theorem WellFormed.asUserRight (h : r.WellFormed) : r.asUserRight.WellFormed :=
  ⟨h.name, h.targetTypes, h.constituents⟩

/-- Every right is read back from its serial form, whether it is well formed or not. -/
theorem ofJson_toJson (r : Right) : Right.schema.ofJson (Right.schema.toJson r) = .ok r :=
  Schema.ofJson_toJson_bare (by decide) r

/-- The rights that can be obtained where only certain texts are decoded. -/
inductive Obtained (trusted : String → Prop) : Right → Prop
  | define {name description : String} {kind : RightKind} {targetTypes : List TargetType}
      {r : Right} (h : Right.define name description kind targetTypes = .ok r) : Obtained trusted r
  | asUserRight {r : Right} (h : Obtained trusted r) : Obtained trusted r.asUserRight
  | decode {text : String} {r : Right} (htext : trusted text)
      (h : Right.schema.ofJson text = .ok r) : Obtained trusted r

variable {trusted : String → Prop}

/-- Every well-formed right can be defined, and made a user right if it is one. -/
theorem WellFormed.obtained (h : r.WellFormed) : Obtained trusted r := by
  have hadmin : Obtained trusted { r with isUserRight := false } :=
    .define (wellFormed_iff_define.mp h)
  cases huser : r.isUserRight with
  | false => rwa [← huser] at hadmin
  | true =>
    have := hadmin.asUserRight
    rwa [Right.asUserRight, ← huser] at this

/-- What is well formed where it is read stays well formed. -/
theorem Obtained.wellFormed
    (htexts : ∀ text r, trusted text → Right.schema.ofJson text = .ok r → r.WellFormed)
    (h : Obtained trusted r) : r.WellFormed := by
  induction h with
  | define h => exact (define_eq_ok_iff.mp h).2
  | asUserRight _ ih => exact ih.asUserRight
  | decode htext h => exact htexts _ _ htext h

/-- **Rights are well formed unless a text spells another one.**  Where certain texts are decoded,
every right that can be obtained is well formed iff every right that one of these texts spells would
be accepted as a definition.  Without texts exactly the well-formed rights are obtained, and with
all texts every right whatsoever. -/
theorem obtained_are_wellFormed_iff (trusted : String → Prop) :
    ((∀ r, Obtained trusted r → r.WellFormed) ↔
      ∀ text r, trusted text → Right.schema.ofJson text = .ok r →
        Right.define r.name r.description r.kind r.targetTypes.toList =
          .ok { r with isUserRight := false }) ∧
      (∀ r, Obtained (fun _ => False) r ↔ r.WellFormed) ∧ ∀ r, Obtained (fun _ => True) r := by
  simp only [← wellFormed_iff_define]
  refine ⟨⟨fun h text r htext hr => h r (.decode htext hr), fun h r hr => hr.wellFormed h⟩, ?_, ?_⟩
  · exact fun r => ⟨fun hr => hr.wellFormed fun _ _ h => h.elim, WellFormed.obtained⟩
  · exact fun r => .decode trivial r.ofJson_toJson

/-- A bundle of nothing, without a name and grantable nowhere, is read from a text, so not every
right is well formed. -/
theorem malformed_right_is_decoded :
    let text := "\x7b\"name\":\"\",\"description\":\"\",\"kind\":\x7b\"Combo\":[]\x7d," ++
      "\"target_types\":[],\"user_right\":false\x7d"
    Right.schema.ofJson text = .ok ⟨"", "", .combo [], .empty, false⟩ ∧
      ¬ ∀ r, Obtained (fun _ => True) r → r.WellFormed := by
  intro text
  have hdecoded : Right.schema.ofJson text = .ok ⟨"", "", .combo [], .empty, false⟩ := by
    have htext : text = Right.schema.toJson ⟨"", "", .combo [], .empty, false⟩ := by decide
    rw [htext]
    exact ofJson_toJson _
  exact ⟨hdecoded, fun h => (h _ (.decode trivial hdecoded)).name rfl⟩

end Right

end Delegation
