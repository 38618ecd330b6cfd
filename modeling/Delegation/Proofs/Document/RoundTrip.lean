/-
# Documents survive being written

Documents of every kind are read back from what is written for them, in either format.  Nothing is
asked of the texts in a document, and a part that is there but empty is told from one that is not.

## Key constructions

* `DocumentKind` — the kinds of documents, each with its layout.

## Key results

* `DocumentKind.documents_survive_json` — a document is read back from its JSON.
* `DocumentKind.documents_survive_cbor` — a document is read back from its CBOR, whatever follows,
  and no document is written in front of what is written for another one.
-/
import Delegation.Document.Acl
import Delegation.Document.Definition
import Delegation.Proofs.Cbor.RoundTrip
import Delegation.Proofs.Json.RoundTrip

namespace Delegation

open Cbor Json

/-- The kinds of documents. -/
inductive DocumentKind
  | acl
  | rights
  | creation
  | definition
deriving DecidableEq, Repr

namespace DocumentKind

/-- The documents of a kind. -/
abbrev Document : DocumentKind → Type
  | acl => AclDocument
  | rights => RightsDocument
  | creation => CreationDocument
  | definition => DefinitionDocument

/-- How the documents of a kind are laid out. -/
def schema : (kind : DocumentKind) → Schema kind.Document
  | acl => AclDocument.schema
  | rights => RightsDocument.schema
  | creation => CreationDocument.schema
  | definition => DefinitionDocument.schema

theorem wellFormed_schema (kind : DocumentKind) : kind.schema.WellFormed := by
  cases kind <;> decide

theorem bounded_schema (kind : DocumentKind) : kind.schema.Bounded := by
  cases kind <;> decide

/-- No document comes near the limit of nesting. -/
theorem depth_schema_le (kind : DocumentKind) : kind.schema.depth ≤ 7 := by
  cases kind <;> decide

/-- A description of a right with texts that need escapes, and with parts that are empty. -/
def emptyParts : DefinitionDocument where
  name := ""
  kind := "\"\\"
  targetTypes := "\x00\n"
  description := "é😀"
  attrs := some ⟨false, [⟨"a", some ⟨none, none, []⟩, []⟩, ⟨"b", some ⟨none, some "", []⟩, [""]⟩]⟩
  rights := some []

/-! ## JSON -/

/-- **Documents survive JSON.**  Every document of every kind is read back from its JSON, with any
blanks before and after it. -/
theorem documents_survive_json (kind : DocumentKind) (d : kind.Document) {before after : String}
    (hbefore : Blank before.toList) (hafter : Blank after.toList) :
    kind.schema.ofJson (before ++ kind.schema.toJson d ++ after) = .ok d :=
  Schema.ofJson_toJson kind.wellFormed_schema d hbefore hafter

theorem empty_parts_survive_json :
    Blank "\n ".toList ∧ Blank "\t\r".toList ∧
      definition.schema.ofJson ("\n " ++ definition.schema.toJson emptyParts ++ "\t\r") =
        .ok emptyParts :=
  ⟨by decide, by decide, documents_survive_json definition emptyParts (by decide) (by decide)⟩

/-! ## CBOR -/

/-- **Documents survive CBOR.**  Every document of every kind whose texts and lists are not too long
is read back from its CBOR, whatever bytes follow.  So what is written for a document never starts
what is written for a different one. -/
theorem documents_survive_cbor (kind : DocumentKind) {d : kind.Document}
    (hd : kind.schema.Fits d) :
    (∀ rest, kind.schema.ofCbor (kind.schema.toCbor d ++ rest) = .ok d) ∧
      ∀ d', kind.schema.Fits d' → kind.schema.toCbor d <+: kind.schema.toCbor d' → d = d' := by
  have hdepth : kind.schema.depth ≤ maxLevels := Nat.le_trans kind.depth_schema_le (by decide)
  constructor
  · intro rest
    exact Schema.ofCbor_toCbor kind.wellFormed_schema kind.bounded_schema hdepth hd rest
  · intro d' hd' hfront
    exact Schema.eq_of_toCbor_prefix kind.wellFormed_schema kind.bounded_schema hdepth hd hd' hfront

theorem empty_parts_survive_cbor :
    definition.schema.Fits emptyParts ∧
      definition.schema.ofCbor (definition.schema.toCbor emptyParts ++ [0xF6]) = .ok emptyParts :=
  have hfits : definition.schema.Fits emptyParts := by decide
  ⟨hfits, (documents_survive_cbor definition hfits).1 [0xF6]⟩

end DocumentKind

end Delegation
