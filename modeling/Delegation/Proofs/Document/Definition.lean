/-
# Rights and their documents

The document of a right spells its shape as a code with optional parts, and its target types as one
text.  Nothing is lost in this but whether users hold the right over their own entries, and, unless
they are asked for, the attributes of a right over every attribute.

## Key constructions

* `RightKind.AgreesUpTo` — shapes that are equal but for their scopes.
* `AttrScope.SameButExpansion` — scopes that are equal but for the list of every attribute.

## Key results

* `Right.targetTypesText_inj` — the text of the target types determines them.
* `DefinitionDocument.ofRight_inj` — what two rights share that have one document.
* `DefinitionDocument.documents_tell_rights_apart` — what a document tells of its right.
-/
import Delegation.Document.Definition

namespace Delegation

open Std

/-! ## Target types -/

/-- Texts that are not empty and do not contain the separator are found again when they are
joined. -/
theorem intercalate_inj {c : Char} {l l' : List String}
    (h : ∀ s ∈ l, s ≠ "" ∧ c ∉ s.toList) (h' : ∀ s ∈ l', s ≠ "" ∧ c ∉ s.toList) :
    (String.singleton c).intercalate l = (String.singleton c).intercalate l' ↔ l = l' := by
  refine ⟨fun heq => ?_, fun heq => heq ▸ rfl⟩
  have hsplit := String.toList_split_intercalate fun s hs => (h s hs).2
  rw [heq, String.toList_split_intercalate fun s hs => (h' s hs).2] at hsplit
  -- The empty text alone is what the empty list leaves behind.
  have hne {l : List String} (hl : ∀ s ∈ l, s ≠ "" ∧ c ∉ s.toList) : l ≠ [""] := by
    rintro rfl
    exact (hl "" List.mem_cons_self).1 rfl
  split at hsplit <;> split at hsplit
  next hl' hl => rw [hl, hl']
  next => exact absurd hsplit.symm (hne h)
  next => exact absurd hsplit (hne h')
  next => exact hsplit.symm

theorem TargetType.code_separable (t : TargetType) : t.code ≠ "" ∧ ',' ∉ t.code.toList := by
  cases t <;> decide

/-- The text of the target types determines them. -/
theorem Right.targetTypesText_inj {r r' : Right} :
    r.targetTypesText = r'.targetTypesText ↔ r.targetTypes = r'.targetTypes := by
  have hcodes (ts : List TargetType) :
      ∀ s ∈ ts.map TargetType.code, s ≠ "" ∧ ',' ∉ s.toList := by
    intro s hs
    obtain ⟨t, -, rfl⟩ := List.mem_map.mp hs
    exact t.code_separable
  rw [Keyed.ext_iff, ← List.map_inj_right fun _ _ => TargetType.code_injective]
  exact intercalate_inj (hcodes _) (hcodes _)

/-- Two rights are the same as user rights iff they differ at most in whether they are. -/
theorem Right.asUserRight_inj {r r' : Right} : r.asUserRight = r'.asUserRight ↔
    r.name = r'.name ∧ r.description = r'.description ∧ r.kind = r'.kind ∧
      r.targetTypes = r'.targetTypes := by
  simp [asUserRight]

/-! ## Shapes -/

/-- The scopes are equal, or both cover every attribute. -/
def AttrScope.SameButExpansion : AttrScope → AttrScope → Prop
  | every _, every _ => True
  | scope, scope' => scope = scope'

/-- The shapes are equal but for the scopes of attribute rights, which are related. -/
def RightKind.AgreesUpTo (related : AttrScope → AttrScope → Prop) : RightKind → RightKind → Prop
  | getAttrs scope, getAttrs scope' | setAttrs scope, setAttrs scope' => related scope scope'
  | kind, kind' => kind = kind'

theorem RightKind.agreesUpTo_eq {k k' : RightKind} : k.AgreesUpTo (· = ·) k' ↔ k = k' := by
  cases k <;> cases k' <;> simp [AgreesUpTo]

namespace DefinitionDocument

variable {expand : Bool}

theorem map_bare_inj {s t : NameSet} :
    s.toList.map AttrDocument.bare = t.toList.map AttrDocument.bare ↔ s = t := by
  have hbare (n m : String) (h : AttrDocument.bare n = AttrDocument.bare m) : n = m :=
    congrArg AttrDocument.name h
  rw [List.map_inj_right hbare, Keyed.ext_iff]

theorem attrsOfScope_true_inj {s s' : AttrScope} :
    attrsOfScope true s = attrsOfScope true s' ↔ s = s' := by
  cases s <;> cases s' <;> simp [attrsOfScope, map_bare_inj]

theorem attrsOfScope_false_inj {s s' : AttrScope} :
    attrsOfScope false s = attrsOfScope false s' ↔ s.SameButExpansion s' := by
  cases s <;> cases s' <;> simp [attrsOfScope, AttrScope.SameButExpansion, map_bare_inj]

/-- The parts of a document that tell of the shape of a right determine it as far as they determine
the scopes. -/
theorem kind_inj {related : AttrScope → AttrScope → Prop}
    (h : ∀ s s', attrsOfScope expand s = attrsOfScope expand s' ↔ related s s') {k k' : RightKind} :
    k.code = k'.code ∧ k.scope?.map (attrsOfScope expand) = k'.scope?.map (attrsOfScope expand) ∧
      k.rights? = k'.rights? ↔ k.AgreesUpTo related k' := by
  cases k <;> cases k' <;>
    simp [RightKind.code, RightKind.scope?, RightKind.rights?, RightKind.AgreesUpTo, h]

/-- Two rights have one document iff they share their names, descriptions and target types, and
their shapes as far as the document tells of their scopes. -/
theorem ofRight_inj (r r' : Right) {related : AttrScope → AttrScope → Prop}
    (h : ∀ s s', attrsOfScope expand s = attrsOfScope expand s' ↔ related s s') :
    ofRight r expand = ofRight r' expand ↔
      r.name = r'.name ∧ r.description = r'.description ∧ r.kind.AgreesUpTo related r'.kind ∧
        r.targetTypes = r'.targetTypes := by
  rw [← kind_inj h, ← Right.targetTypesText_inj, ofRight, ofRight, mk.injEq]
  constructor
  · rintro ⟨hname, hcode, htypes, hdescription, hparts⟩
    exact ⟨hname, hdescription, ⟨hcode, hparts⟩, htypes⟩
  · rintro ⟨hname, hdescription, ⟨hcode, hparts⟩, htypes⟩
    exact ⟨hname, hcode, htypes, hdescription, hparts⟩

/-- **Documents tell rights apart.**  However two rights were made, their documents with expanded
lists are equal iff the rights share their names, descriptions, shapes and target types, that is,
iff they differ at most in whether they are user rights.  Their documents without expanded lists are
equal iff the rights share all this but for the list of a scope that covers every attribute.  A
document lists attributes iff it is that of an attribute right, and rights iff it is that of a combo
right. -/
theorem documents_tell_rights_apart (r r' : Right) :
    (ofRight r true = ofRight r' true ↔
      r.name = r'.name ∧ r.description = r'.description ∧ r.kind = r'.kind ∧
        r.targetTypes = r'.targetTypes) ∧
    (ofRight r true = ofRight r' true ↔ r.asUserRight = r'.asUserRight) ∧
    (ofRight r false = ofRight r' false ↔
      r.name = r'.name ∧ r.description = r'.description ∧
        r.kind.AgreesUpTo AttrScope.SameButExpansion r'.kind ∧ r.targetTypes = r'.targetTypes) ∧
    ∀ expand,
      ((ofRight r expand).attrs.isSome = true ↔
        ∃ scope, r.kind = .getAttrs scope ∨ r.kind = .setAttrs scope) ∧
      ((ofRight r expand).rights.isSome = true ↔ ∃ rights, r.kind = .combo rights) := by
  have hexpanded := ofRight_inj r r' fun _ _ => attrsOfScope_true_inj
  rw [RightKind.agreesUpTo_eq] at hexpanded
  refine ⟨hexpanded, hexpanded.trans Right.asUserRight_inj.symm,
    ofRight_inj r r' fun _ _ => attrsOfScope_false_inj, fun expand => ?_⟩
  unfold ofRight
  cases r.kind <;> simp [RightKind.scope?, RightKind.rights?]

end DefinitionDocument

end Delegation
