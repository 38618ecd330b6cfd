/-
# What a catalog lists and resolves

A right that is defined again replaces the one of its name, and the new definition may be of another
kind: an admin right becomes a user right, or is no longer grantable on a type.  Both ways to get at
rights see the last definitions only.  The listing of admin rights chooses among them, and a
document that describes a right leads to the last definition of its name, whatever else it says.

## Key constructions

* `Right.DefinedLast` — a right is the last one that was defined under its name.
* `Right.Listed` — a right is listed as an admin right, on one target type or on all.
* `Engine.resolve` — the request for the right that a document describes.

## Key results

* `Catalog.right_eq_ok_iff_definedLast`, `Catalog.right_eq_error_iff` — what a catalog has under a
  name, and when it has nothing.
* `Engine.run_allRights`, `Engine.run_resolve` — how rights are listed and documents resolved.
* `last_definitions_are_listed_and_resolved` — both go by the last definitions, also for documents
  that were written and read again.
-/
import Delegation.Document.Definition
import Delegation.Engine.Query
import Delegation.Proofs.Cbor.RoundTrip
import Delegation.Proofs.Json.RoundTrip
import Delegation.Proofs.Last
import Delegation.Proofs.Lookup
import Delegation.Proofs.Request
import Delegation.Script
import Delegation.Store.Ledger

namespace Delegation

open Json Request

/-! ## Definitions one after the other -/

/-- Of the rights that were defined one after the other, this is the last one of its name. -/
def Right.DefinedLast (rs : List Right) (r : Right) : Prop := IsLast (fun x => x.name = r.name) rs r

/-- The right is an admin right, and grantable on the type if one is given. -/
def Right.Listed (type : Option TargetType) (r : Right) : Prop :=
  r.isUserRight = false ∧ ∀ t, type = some t → r.grantableOn t = true

theorem Right.listed_iff {type : Option TargetType} {r : Right} :
    r.Listed type ↔ (!r.isUserRight && type.all r.grantableOn) = true := by
  cases type <;> simp [Listed]

namespace Catalog

variable {rs : List Right} {name : String}

/-- A catalog that was made from definitions has the right that was defined last under a name. -/
theorem right_eq_ok_iff_definedLast {r : Right} :
    right (Keyed.ofList Right.name rs) name = .ok r ↔ r.DefinedLast rs ∧ r.name = name := by
  rw [right_eq_ok_iff, Keyed.get?_eq_some_iff, Keyed.mem_ofList_iff, Right.DefinedLast]

/-- The catalog has nothing under a name iff no right of that name was defined. -/
theorem right_eq_error_iff {e : ServiceError} :
    right (Keyed.ofList Right.name rs) name = .error e ↔
      e = .notFound .right name ∧ ∀ r ∈ rs, r.name ≠ name := by
  have hnone : (Keyed.ofList Right.name rs).get? name = none ↔ ∀ r ∈ rs, r.name ≠ name := by
    simp [Keyed.get?_ofList]
  rw [← hnone]
  unfold right
  cases (Keyed.ofList Right.name rs).get? name <;> simp [eq_comm]

end Catalog

/-! ## Requests -/

namespace Engine

variable {D C E S : Type}

/-- The request for the right that a document describes. -/
def resolve (engine : Engine D C E S) (d : DefinitionDocument) : Request D C E S Right :=
  .catalog (d.resolve engine.catalog)

variable {engine : Engine D Catalog E S} (hcatalog : engine.catalog = Catalog.service)

include hcatalog

/-- The listing goes through the catalog in the order of names, and leaves everything as it is. -/
theorem run_allRights (type : Option TargetType) (w : World D Catalog E S) :
    (engine.allRights type).run w =
      (.ok (w.catalog.toList.filter fun r => !r.isUserRight && type.all r.grantableOn), w) := by
  unfold allRights
  rw [hcatalog]
  rfl

/-- A document is resolved by its name alone. -/
theorem run_resolve (d : DefinitionDocument) (w : World D Catalog E S) :
    (engine.resolve d).run w = (orRefuse (w.catalog.right d.name), w) := by
  unfold resolve DefinitionDocument.resolve
  rw [hcatalog]
  rfl

end Engine

/-- **Last definitions are listed and resolved.**  Take a catalog that was made by defining rights
one after the other.  The admin rights, on one target type or on all, are listed in the order of
their names, and they are exactly the rights that were defined last under their names, that are no
user rights and that are grantable on the type.  A document is resolved as the right that was
defined last under its name, whatever else it says, and it is refused iff there is no definition of
that name; once it was written and read again, as JSON or as CBOR, it is resolved in the same way.
So the document of a right in the catalog leads back to this right, with or without its attributes
spelled out, and so does every document with the same name. -/
theorem last_definitions_are_listed_and_resolved {D E S : Type} (directory : DirectoryService D)
    (evaluator : EvaluatorService E) (store : StoreService S) (config : Config)
    (world : World D Catalog E S) (rs : List Right) :
    let engine : Engine D Catalog E S := ⟨⟨directory, Catalog.service, evaluator, store⟩, config⟩
    let w := { world with catalog := Keyed.ofList Right.name rs }
    let resolved (d : DefinitionDocument) := (engine.resolve d).run w
    (∀ type, ∃ listed, (engine.allRights type).run w = (.ok listed, w) ∧
      listed.Pairwise (fun r r' => r.name < r'.name) ∧
      ∀ r, r ∈ listed ↔ r.DefinedLast rs ∧ r.Listed type) ∧
    (∀ d, (resolved d).2 = w ∧
      (∀ r, (resolved d).1 = .ok r ↔ r.DefinedLast rs ∧ r.name = d.name) ∧
      ∀ e, (resolved d).1 = .error e ↔
        e = .notFound .right d.name ∧ ∀ r ∈ rs, r.name ≠ d.name) ∧
    (∀ d before after, Blank before.toList → Blank after.toList →
      ∃ d', DefinitionDocument.schema.ofJson
          (before ++ DefinitionDocument.schema.toJson d ++ after) = .ok d' ∧
        resolved d' = resolved d) ∧
    (∀ d rest, DefinitionDocument.schema.Fits d →
      ∃ d', DefinitionDocument.schema.ofCbor
          (DefinitionDocument.schema.toCbor d ++ rest) = .ok d' ∧
        resolved d' = resolved d) ∧
    ∀ r expand d, r.DefinedLast rs → d.name = (DefinitionDocument.ofRight r expand).name →
      resolved d = (.ok r, w) := by
  intro engine w resolved
  have hresolved (d : DefinitionDocument) : resolved d = (orRefuse (w.catalog.right d.name), w) :=
    engine.run_resolve rfl d w
  have hwellFormed : DefinitionDocument.schema.WellFormed := by decide
  refine ⟨fun type => ⟨_, engine.run_allRights rfl type w, ?_, fun r => ?_⟩,
    fun d => ⟨?_, fun r => ?_, fun e => ?_⟩, fun d before after hbefore hafter => ?_,
    fun d rest hfits => ?_, fun r expand d hr hname => ?_⟩
  · have hascending := w.catalog.ascending.filter fun r => !r.isUserRight && type.all r.grantableOn
    exact hascending.imp compare_text_eq_lt_iff.mp
  · rw [List.mem_filter, Right.listed_iff]
    exact and_congr_left' Keyed.mem_ofList_iff
  · rw [hresolved]
  · rw [hresolved, orRefuse_eq_ok_iff, Catalog.right_eq_ok_iff_definedLast]
  · rw [hresolved, orRefuse_eq_error_iff]
    constructor
    · rintro ⟨cause, hcause, rfl⟩
      obtain ⟨rfl, hnone⟩ := Catalog.right_eq_error_iff.mp hcause
      exact ⟨rfl, hnone⟩
    · rintro ⟨rfl, hnone⟩
      exact ⟨_, Catalog.right_eq_error_iff.mpr ⟨rfl, hnone⟩, rfl⟩
  · exact ⟨d, Schema.ofJson_toJson hwellFormed d hbefore hafter, rfl⟩
  · exact ⟨d, Schema.ofCbor_toCbor hwellFormed (by decide) (by decide) hfits rest, rfl⟩
  · have hname : r.name = d.name := hname.symm
    rw [hresolved, Catalog.right_eq_ok_iff_definedLast.mpr ⟨hr, hname⟩, orRefuse_ok]

/-- A right is defined twice, the second time as a user right, and another one is no longer
grantable on domains.  Neither is listed for domains, and a document of the first definition,
altered and sent as JSON, is resolved as the second one. -/
theorem replaced_definitions_are_not_seen :
    let kept : Right := ⟨"kept", "", .preset, .ofList id [.domain], false⟩
    let first : Right := ⟨"invite", "", .combo ["kept"], .ofList id [.domain], false⟩
    let second : Right := ⟨"invite", "", .preset, .ofList id [.account], true⟩
    let narrow : Right := ⟨"narrow", "", .preset, .ofList id [.server], false⟩
    let rs := [first, { narrow with targetTypes := .ofList id [.domain] }, second, narrow, kept]
    let engine : Engine Directory Catalog Script Ledger :=
      ⟨⟨Directory.service, Catalog.service, Script.service true, Ledger.service⟩, ⟨true, true⟩⟩
    let w : World Directory Catalog Script Ledger :=
      ⟨.initial, .ofList Right.name rs, .empty, .empty, []⟩
    let altered := { DefinitionDocument.ofRight first true with description := "?", rights := none }
    (∃ listed, (engine.allRights (some .domain)).run w = (.ok listed, w) ∧
      first ∉ listed ∧ second ∉ listed ∧ narrow ∉ listed ∧ kept ∈ listed) ∧
    ∃ d, DefinitionDocument.schema.ofJson
        (" " ++ DefinitionDocument.schema.toJson altered ++ "\n") = .ok d ∧
      (engine.resolve d).run w = (.ok second, w) := by
  intro kept first second narrow rs engine w altered
  obtain ⟨hlisted, -, hjson, -, hcurrent⟩ := last_definitions_are_listed_and_resolved
    Directory.service (Script.service true) Ledger.service ⟨true, true⟩ w rs
  obtain ⟨listed, hrun, -, hmem⟩ := hlisted (some .domain)
  obtain ⟨d, hd, hsame⟩ := hjson altered " " "\n" (by decide) (by decide)
  have hsecond : second.DefinedLast rs := ⟨rfl, [_, _], [_, _], rfl, by decide⟩
  have hkept : kept.DefinedLast rs := ⟨rfl, [_, _, _, _], [], rfl, by decide⟩
  refine ⟨⟨listed, hrun, fun h => ?_, fun h => ?_, fun h => ?_, ?_⟩, d, hd, ?_⟩
  · have hfirst : first ∈ (Keyed.ofList Right.name rs).toList :=
      Keyed.mem_ofList_iff.mpr ((hmem first).mp h).1
    exact absurd hfirst (by decide)
  · cases ((hmem second).mp h).2.1
  · cases ((hmem narrow).mp h).2.2 .domain rfl
  · exact (hmem kept).mpr ⟨hkept, rfl, by decide⟩
  · exact hsame.trans (hcurrent second true altered hsecond rfl)

end Delegation
