/-
# Documents of older and newer peers

A peer may order the members of its objects as it likes, add members that are not known here, and
leave out those that stand for defaults.  Its documents are read all the same.  What a peer may not
do is to repeat a member that is known, or to leave out one that is required.

## Key results

* `DocumentKind.fields_that_may_be_missing` — what may be missing, object by object.
* `DocumentKind.documents_are_read_leniently` — the texts from which a document is read, and texts
  from which none is read.
* `DocumentKind.older_rights_are_read` — attributes that may be missing in one document and not in
  another.
-/
import Delegation.Proofs.Document.RoundTrip

namespace Delegation

open Json

namespace DocumentKind

/-- The fields that may be missing, for each object of a document.  The attributes that may be set
are such a field of a target, and not of what is said about creating an entry. -/
theorem fields_that_may_be_missing :
    AclDocument.schema.MayLack ["grants"] ∧
      GrantDocument.schema.MayLack ["deny", "canDelegate"] ∧
      RightsDocument.schema.MayLack [] ∧
      GranteeDocument.schema.MayLack [] ∧
      TargetDocument.schema.MayLack ["right", "setAttrs", "getAttrs"] ∧
      AttrsDocument.schema.MayLack ["all", "a"] ∧
      AttrDocument.schema.MayLack ["constraint", "default"] ∧
      ConstraintDocument.schema.MayLack ["min", "max", "values"] ∧
      CreationDocument.schema.MayLack [] ∧
      DefinitionDocument.schema.MayLack ["attrs", "rights"] := by
  refine ⟨?_, ?_, ?_, ?_, ?_, ?_, ?_, ?_, ?_, ?_⟩ <;> exact Schema.mayLack_optional _ (by decide)

/-- **Documents are read leniently, and not too leniently.**  A document of any kind is read from
every JSON text whose tree conveys it: with the members of its objects in any order, with any
well-formed values under names that are no fields, without members that stand for the defaults of
their fields, and with any blanks between tokens.  What is written for the document is one of these
texts.  But no document is read from a text if one of its objects repeats a field, or lacks one that
has no default. -/
theorem documents_are_read_leniently (kind : DocumentKind) (d : kind.Document) :
    (Denotes (kind.schema.toJson d) (kind.schema.toReading d) ∧
        kind.schema.Conveys d (kind.schema.toReading d)) ∧
      ∀ text r, Denotes text r →
        (kind.schema.Conveys d r → kind.schema.ofJson text = .ok d) ∧
          (kind.schema.Flawed r → ∃ fault, kind.schema.ofJson text = .error fault) := by
  refine ⟨⟨kind.schema.denotes_toJson d, kind.schema.conveys_toReading d⟩, fun text r htext => ?_⟩
  rw [kind.schema.ofJson_of_denotes htext]
  refine ⟨fun h => kind.schema.ofReading_of_conveys kind.wellFormed_schema h htext.intact,
    fun h => ?_⟩
  have hnone := kind.schema.ofReading_of_flawed kind.wellFormed_schema h
  cases hread : kind.schema.ofReading r with
  | ok a => exact (hnone a hread).elim
  | error fault => exact ⟨fault, rfl⟩

/-- Attributes that may be set are a default of a target, and required where an entry is created.  A
number beyond any range, half of a surrogate pair and a second object under unknown names do not
matter, and a list of grants may not come twice. -/
theorem older_rights_are_read :
    rights.schema.ofJson (" \x7b \"target\":\x7b" ++
        "\"seen\":[1e999,\"\\ud800\",\x7b\"id\":null\x7d]," ++
        "\"name\":\"t\",\"id\":\"1\",\"type\":\"account\"\x7d,\n" ++
        "\"grantee\" : \x7b\"name\":\"g\",\"id\":\"0\"\x7d\x7d\t") =
        .ok ⟨⟨"0", "g"⟩, ⟨.account, "1", "t", [], .none, .none⟩⟩ ∧
      (∃ fault, creation.schema.ofJson "\x7b\"seen\":true\x7d" = .error fault) ∧
        ∃ fault, acl.schema.ofJson "\x7b\"grants\":[],\"grants\":null\x7d" = .error fault := by
  have hnumber : Magnitude false (['1'] ++ ([] ++ 'e' :: ['9', '9', '9'])) _ :=
    .mk ⟨by simp, List.all_eq_true.mp rfl, rfl⟩ (by simp) .none
      (.digits (.inl rfl) ⟨by simp, List.all_eq_true.mp rfl, rfl⟩)
  have hhalf : Quoted _ none :=
    .mk (.hexQuad (show hexQuad? 'd' '8' '0' '0' = some 0xD800 by rfl) .nil)
  have htext (name value : String) := (Spells.text (quoted_quote value)).member name
  -- what stands under the unknown name has an object of its own, and the name of a field in it
  have hseen := spells_arrayText (.cons (.number (.unsigned hnumber)) (.cons (.text hhalf)
    (.cons (spells_objectText (.cons (Spells.null.member "id") .nil)) .nil)))
  have htarget := spells_objectText (.cons (hseen.member "seen") (.cons (htext "name" "t")
    (.cons (htext "id" "1") (.cons (htext "type" "account") .nil))))
  have hgrantee := spells_objectText (.cons (htext "name" "g") (.cons (htext "id" "0") .nil))
  have hspace : Blank [' '] := by decide
  have hrights := Spells.object (.cons hspace (quoted_quote "target") blank_nil blank_nil htarget
    blank_nil (.last (show Blank ['\n'] by decide) (quoted_quote "grantee") hspace hspace hgrantee
      blank_nil))
  have hcreation := spells_objectText (.cons ((Spells.bool true).member "seen") .nil)
  have hacl := spells_objectText (.cons ((Spells.emptyArray blank_nil).member "grants")
    (.cons (Spells.null.member "grants") .nil))
  refine ⟨((documents_are_read_leniently rights _).2 _ _
      ⟨[' '], _, ['\t'], hspace, hrights, by decide, by decide +kernel⟩).1 ?_,
    ((documents_are_read_leniently creation ⟨.none⟩).2 _ _
      ⟨[], _, [], blank_nil, hcreation, blank_nil, by decide⟩).2 ?_,
    ((documents_are_read_leniently acl ⟨[]⟩).2 _ _
      ⟨[], _, [], blank_nil, hacl, blank_nil, by decide⟩).2 ?_⟩
  · -- the members stand in reverse order, the unknown one in front
    refine ⟨[_, _], [], _, rfl, List.reverse_perm [_, _], .inr ⟨_, _, rfl, ?_, .inr ⟨_, _, rfl, ?_,
      rfl⟩⟩, by simp⟩
    · exact ⟨[_, _], [], _, rfl, List.reverse_perm [_, _],
        .inr ⟨_, _, rfl, rfl, .inr ⟨_, _, rfl, rfl, rfl⟩⟩, by simp⟩
    · exact ⟨[_, _, _], [_], _, rfl, List.reverse_perm [_, _, _, _],
        .inr ⟨_, _, rfl, rfl, .inr ⟨_, _, rfl, rfl, .inr ⟨_, _, rfl, rfl,
          .inl ⟨rfl, .inl ⟨rfl, .inl ⟨rfl, rfl⟩⟩⟩⟩⟩⟩, by simp [Fields.names]⟩
  · exact ⟨_, rfl, .inr (.inl ⟨rfl, rfl⟩)⟩
  · exact ⟨_, rfl, .inl (by decide)⟩

end DocumentKind

end Delegation
