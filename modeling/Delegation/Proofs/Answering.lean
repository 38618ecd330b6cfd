/-
# Checks deny by default

Whether an account may exercise a right on a target is decided by what a script says about the
question: which account was found, under which key the target that was found stores its grants, and
how the right is called.  Of several answers to a question the last one counts, and without any
answer the right is denied.  The caller learns which grant decided iff the answer names one.

## Key constructions

* `Script.Edit`, `Script.edits` — changes of a script, one after the other.
* `Script.SettledLast` — the answer that was given last to a question.
* `Check`, `Check.Asks` — a check of a right, and the question to which it comes.
* `Checked` — what a check comes to.

## Key results

* `Script.settled?_edits_iff` — a script has the answer that was given last.
* `Engine.run_check_of_asks`, `Engine.run_check_of_forall_not_asks` — a check that comes to a
  question is answered by the script, and any other one is refused and changes nothing.
* `checks_deny_by_default` — answer, deciding grant and side effects of any check after any history.
-/
import Delegation.Proofs.Last
import Delegation.Proofs.Lookup
import Delegation.Proofs.Question
import Delegation.Rehearsal.Sample
import Delegation.Store.Recorder

namespace Delegation

open Request

/-! ## Scripts -/

namespace Script

/-- A change of a script. -/
inductive Edit
  | allowDelegation (a : ActorRight)
  | denyPartially (a : ActorRight)
  | settle (q : Question) (via : Option DecidingGrant)
  | setEffective (granteeId targetName : String) (p : RightsProfile)
  | place (p : PlacedRights)

/-- The script after a change. -/
def edit (s : Script) : Edit → Script
  | .allowDelegation a => s.allowDelegation a
  | .denyPartially a => s.denyPartially a
  | .settle q via => s.settle q via
  | .setEffective granteeId targetName p => s.setEffective granteeId targetName p
  | .place p => s.place p

/-- The script after some changes. -/
def edits (s : Script) (es : List Edit) : Script := es.foldl edit s

/-- The change answers the question. -/
def Edit.Settles (q : Question) : Edit → Prop
  | .settle q' _ => q' = q
  | _ => False

/-- The question was answered so, by a grant or without one, and not answered again since. -/
def SettledLast (es : List Edit) (q : Question) (via : Option DecidingGrant) : Prop :=
  IsLast (Edit.Settles q) es (.settle q via)

/-- How the script answers a question, if it does. -/
def settled? (s : Script) (q : Question) : Option (Option DecidingGrant) :=
  (s.decisions.find? fun d => d.1 = q).map Prod.snd

variable {s : Script} {e : Edit} {es : List Edit} {q : Question} {via : Option DecidingGrant}

/-- Without an answer a right is denied, and otherwise the deciding grant counts if there is one. -/
theorem answer_eq (s : Script) (q : Question) :
    s.answer q =
      match s.settled? q with
      | none => ⟨false, none⟩
      | some none => ⟨true, none⟩
      | some (some via) => ⟨!via.isNegative, some via⟩ := by
  unfold answer settled?
  cases s.decisions.find? fun d => d.1 = q with
  | none => rfl
  | some d =>
    obtain ⟨_, _ | via⟩ := d
    · rfl
    · rfl

theorem allowed_answer_iff :
    (s.answer q).allowed = true ↔
      s.settled? q = some none ∨
        ∃ via, s.settled? q = some (some via) ∧ via.isNegative = false := by
  rw [answer_eq]
  rcases s.settled? q with _ | _ | via <;> simp

theorem denied_answer_iff :
    (s.answer q).allowed = false ↔
      (∀ via, s.settled? q ≠ some via) ∨
        ∃ via, s.settled? q = some (some via) ∧ via.isNegative = true := by
  rw [answer_eq]
  rcases s.settled? q with _ | _ | via <;> simp

/-- A decision that names a grant is that of the grant. -/
theorem via_answer_eq_some_iff {via : DecidingGrant} :
    (s.answer q).via = some via ↔ s.settled? q = some (some via) := by
  rw [answer_eq]
  rcases s.settled? q with _ | _ | via' <;> simp

theorem answer_eq_of_via {via : DecidingGrant} (h : (s.answer q).via = some via) :
    s.answer q = ⟨!via.isNegative, some via⟩ := by
  rw [answer_eq, via_answer_eq_some_iff.mp h]

/-- A question is answered by the changes that answer it, and by no others. -/
theorem settled?_edit_iff :
    (s.edit e).settled? q = some via ↔
      e.Settles q ∧ e = .settle q via ∨ ¬ e.Settles q ∧ s.settled? q = some via := by
  cases e with
  | settle q' via' =>
    simp only [edit, settle, settled?, Edit.Settles, List.find?_cons]
    by_cases hq : q' = q <;> simp [hq]
  | _ => simp [edit, Edit.Settles, settled?, allowDelegation, denyPartially, setEffective, place]

/-- After some changes, a script that answered nothing before gives the last answer. -/
theorem settled?_edits_iff (hs : s.decisions = []) :
    (s.edits es).settled? q = some via ↔ SettledLast es q via := by
  have hnone : s.settled? q = none := by simp [settled?, hs]
  have hview : (s.edits es).settled? q = some via ↔
      SettledLast es q via ∨ (∀ e ∈ es, ¬ e.Settles q) ∧ s.settled? q = some via :=
    view_foldl_iff edit (fun s => s.settled? q) (.settle q) (fun _ _ _ => settled?_edit_iff) s via
  refine hview.trans (or_iff_left fun h => ?_)
  rw [hnone] at h
  cases h.2

end Script

/-! ## Checks -/

/-- A check whether an account may exercise a right on a target, with values for attributes. -/
structure Check where
  target : TargetAddress
  account : Locator
  right : String
  attrs : Option AttrValues

namespace Check

variable {S : Type} {w : World Directory Catalog Script S} {c : Check} {q q' : Question}

/-- Values for attributes come with a right to write attributes only. -/
def Admits (c : Check) (r : Right) : Prop :=
  c.attrs = none ∨ c.attrs = some ∅ ∨ r.isSetAttrs = true

/-- The check comes to the question: the target, the account and the right are found, no values come
that do not belong to the right, and the question is about what was found. -/
def Asks (w : World Directory Catalog Script S) (c : Check) (q : Question) : Prop :=
  ∃ t g r, w.directory.lookupTarget c.target.type c.target.locator = .ok t ∧
    w.directory.lookupGrantee .user c.account = .ok g ∧ w.catalog.right c.right = .ok r ∧
    c.Admits r ∧ q = ⟨g.id, t.aclKey, r.name⟩

theorem Asks.eq (h : c.Asks w q) (h' : c.Asks w q') : q = q' := by
  obtain ⟨t, g, r, ht, hg, hr, -, rfl⟩ := h
  obtain ⟨t', g', r', ht', hg', hr', -, rfl⟩ := h'
  cases ht.symm.trans ht'
  cases hg.symm.trans hg'
  cases hr.symm.trans hr'
  rfl

/-- There is no other question to which the check comes. -/
theorem Asks.exists_iff (h : c.Asks w q) {P : Question → Prop} :
    (∃ q', c.Asks w q' ∧ P q') ↔ P q :=
  ⟨fun ⟨_, hq', hP⟩ => hq'.eq h ▸ hP, fun hP => ⟨q, h, hP⟩⟩

theorem admits_iff {r : Right} :
    c.Admits r ↔ ¬ (c.attrs.any (!·.isEmpty) && !r.isSetAttrs) = true := by
  have hempty {values : AttrValues} : values = ∅ ↔ values.isEmpty = true := by
    rw [Keyed.ext_iff]
    exact List.isEmpty_iff.symm
  unfold Admits
  cases c.attrs with
  | none => simp
  | some values => cases r.isSetAttrs <;> simp [hempty]

end Check

namespace Engine

variable {S : Type}

/-- Carries a check out. -/
def check {D C E : Type} (engine : Engine D C E S) (c : Check) : Request D C E S Decision :=
  engine.checkRight c.target c.account c.right c.attrs

variable (supports : Bool) (store : StoreService S) (config : Config)
  {w : World Directory Catalog Script S} {c : Check} {q : Question}

/-- In memory, what is found for an account is an account. -/
theorem run_lookupAccount_scripted (account : Locator) (w : World Directory Catalog Script S) :
    ((scripted supports store config).lookupAccount account).run w =
      (orRefuse (w.directory.lookupGrantee .user account), w) := by
  have hfound : ((scripted supports store config).lookupGrantee ⟨.user, account⟩).run w =
      (orRefuse (w.directory.lookupGrantee .user account), w) := rfl
  unfold lookupAccount
  cases hg : w.directory.lookupGrantee .user account with
  | error e =>
    rw [hg] at hfound
    rw [run_bind_of_error (congrArg Prod.fst hfound), hfound]
    rfl
  | ok g =>
    rw [hg] at hfound
    rw [run_bind_of_ok (congrArg Prod.fst hfound), hfound,
      if_pos (Directory.type_of_lookupGrantee hg)]
    rfl

/-- A check looks up the target, the account and the right, and then looks at the values. -/
theorem run_check_scripted (c : Check) (w : World Directory Catalog Script S) :
    ((scripted supports store config).check c).run w =
      match w.directory.lookupTarget c.target.type c.target.locator,
        w.directory.lookupGrantee .user c.account, w.catalog.right c.right with
      | .error e, _, _ | .ok _, .error e, _ | .ok _, .ok _, .error e => (.error (.ofService e), w)
      | .ok t, .ok g, .ok r =>
        if c.attrs.any (!·.isEmpty) && !r.isSetAttrs then
          (.error (.invalid (.attrsNotAllowed r.name)), w)
        else
          let decision := w.evaluator.answer ⟨g.id, t.aclKey, r.name⟩
          (.ok decision, { w with
            evaluator.decisionCount := w.evaluator.decisionCount + 1
            log := if decision.allowed then w.log
              else w.log ++ [.checkDenied g.name t.name r.name] }) := by
  have htarget : ((scripted supports store config).lookupTarget c.target).run w =
      (orRefuse (w.directory.lookupTarget c.target.type c.target.locator), w) := rfl
  have haccount := run_lookupAccount_scripted supports store config c.account w
  have hright : ((scripted supports store config).right c.right).run w =
      (orRefuse (w.catalog.right c.right), w) := rfl
  unfold check checkRight
  cases ht : w.directory.lookupTarget c.target.type c.target.locator with
  | error e =>
    rw [ht] at htarget
    rw [run_bind_of_error (congrArg Prod.fst htarget), htarget]
  | ok t =>
    rw [ht] at htarget
    rw [run_bind_of_ok (congrArg Prod.fst htarget), htarget]
    cases hg : w.directory.lookupGrantee .user c.account with
    | error e =>
      rw [hg] at haccount
      rw [run_bind_of_error (congrArg Prod.fst haccount), haccount]
    | ok g =>
      rw [hg] at haccount
      rw [run_bind_of_ok (congrArg Prod.fst haccount), haccount]
      cases hr : w.catalog.right c.right with
      | error e =>
        rw [hr] at hright
        rw [run_bind_of_error (congrArg Prod.fst hright), hright]
      | ok r =>
        rw [hr] at hright
        rw [run_bind_of_ok (congrArg Prod.fst hright), hright]
        dsimp only
        split
        · rfl
        · rw [run_bind_of_ok (a := w.evaluator.answer ⟨g.id, t.aclKey, r.name⟩) rfl]
          cases ha : (w.evaluator.answer ⟨g.id, t.aclKey, r.name⟩).allowed with
          | true => rfl
          | false => rfl

/-- A check that comes to a question is one decision, which is the answer of the script. -/
theorem run_check_of_asks (h : c.Asks w q) :
    ∃ log, ((scripted supports store config).check c).run w =
      (.ok (w.evaluator.answer q), { w with
        evaluator.decisionCount := w.evaluator.decisionCount + 1
        log := log }) := by
  obtain ⟨t, g, r, ht, hg, hr, hadmits, rfl⟩ := h
  rw [run_check_scripted, ht, hg, hr]
  dsimp only
  rw [if_neg (Check.admits_iff.mp hadmits)]
  exact ⟨_, rfl⟩

/-- A check that does not come to a question is refused, and leaves everything as it is. -/
theorem run_check_of_forall_not_asks (h : ∀ q, ¬ c.Asks w q) :
    ∃ e, ((scripted supports store config).check c).run w = (.error e, w) := by
  rw [run_check_scripted]
  cases ht : w.directory.lookupTarget c.target.type c.target.locator with
  | error e => exact ⟨_, rfl⟩
  | ok t =>
    cases hg : w.directory.lookupGrantee .user c.account with
    | error e => exact ⟨_, rfl⟩
    | ok g =>
      cases hr : w.catalog.right c.right with
      | error e => exact ⟨_, rfl⟩
      | ok r =>
        have hadmits : ¬ c.Admits r := fun hadmits => h _ ⟨t, g, r, ht, hg, hr, hadmits, rfl⟩
        rw [Check.admits_iff, Classical.not_not] at hadmits
        dsimp only
        rw [if_pos hadmits]
        exact ⟨_, rfl⟩

end Engine

/-! ## What a check comes to -/

open Engine Script

/-- What a check with a certain result comes to, if it was made in the world `w` after some changes
of a script without answers. -/
structure Checked {S : Type} (w : World Directory Catalog Script S) (c : Check)
    (es : List Script.Edit) (result : Except RequestError Decision)
    (after : World Directory Catalog Script S) : Prop where
  /-- The right is allowed iff the last answer allows it or names a grant that does. -/
  allowed : (∃ d, result = .ok d ∧ d.allowed = true) ↔ ∃ q, c.Asks w q ∧
    (SettledLast es q none ∨ ∃ via, SettledLast es q (some via) ∧ via.isNegative = false)
  /-- The right is denied iff there is no answer, or the last one names a grant that denies it. -/
  denied : (∃ d, result = .ok d ∧ d.allowed = false) ↔ ∃ q, c.Asks w q ∧
    ((∀ via, ¬ SettledLast es q via) ∨ ∃ via, SettledLast es q (some via) ∧ via.isNegative = true)
  /-- The check is refused iff it does not come to a question. -/
  refused : (∃ e, result = .error e) ↔ ∀ q, ¬ c.Asks w q
  /-- Whatever was noted before, a grant is noted iff the last answer names it. -/
  noted : ∀ via, (∀ before, noteAfter before result = via) ↔
    ∃ q, c.Asks w q ∧ SettledLast es q (some via)
  /-- A grant that is noted decides the answer. -/
  decided : ∀ via, (∀ before, noteAfter before result = via) →
    result = .ok ⟨!via.isNegative, some via⟩
  /-- If no grant is noted, what was noted before stays. -/
  kept : (¬ ∃ q via, c.Asks w q ∧ SettledLast es q (some via)) →
    ∀ before, noteAfter before result = before
  /-- The evaluator is asked for one decision by a check that is answered. -/
  asked : ∀ d, result = .ok d →
    after.evaluator.decisionCount = w.evaluator.decisionCount + 1
  /-- A refused check leaves the note alone, and does not ask the evaluator. -/
  unasked : ∀ e, result = .error e → (∀ before, noteAfter before result = before) ∧
    after.evaluator.decisionCount = w.evaluator.decisionCount
  /-- The store is left alone. -/
  store : after.store = w.store

theorem exists_ok_iff {a : Decision} {P : Decision → Prop} :
    (∃ d, (.ok a : Except RequestError Decision) = .ok d ∧ P d) ↔ P a := by
  simp

/-- A grant is noted, whatever was noted before, iff a decision names it. -/
theorem noteAfter_eq_iff {result : Except RequestError Decision} {via : DecidingGrant} :
    (∀ before, noteAfter before result = via) ↔ ∃ d, result = .ok d ∧ d.via = some via := by
  constructor
  · intro h
    have hother : ¬ ∀ before : DecidingGrant, before = via := fun hall =>
      absurd (congrArg DecidingGrant.isNegative (hall { via with isNegative := !via.isNegative }))
        (by simp)
    rcases result with e | ⟨allowed, _ | via'⟩
    · exact (hother h).elim
    · exact (hother h).elim
    · obtain rfl : via' = via := h via
      exact ⟨_, rfl, rfl⟩
  · rintro ⟨d, rfl, hd⟩ before
    simp [noteAfter, hd]

namespace Checked

variable {S : Type} {w after : World Directory Catalog Script S} {c : Check} {es : List Script.Edit}
  {q : Question}

/-- What an answer of the script comes to. -/
theorem of_asks (h : c.Asks w q)
    (hlast : ∀ via, w.evaluator.settled? q = some via ↔ SettledLast es q via)
    (hcount : after.evaluator.decisionCount = w.evaluator.decisionCount + 1)
    (hstore : after.store = w.store) : Checked w c es (.ok (w.evaluator.answer q)) after where
  allowed := by
    rw [h.exists_iff, exists_ok_iff, allowed_answer_iff]
    simp only [hlast]
  denied := by
    rw [h.exists_iff, exists_ok_iff, denied_answer_iff]
    simp only [ne_eq, hlast]
  refused := ⟨fun ⟨_, he⟩ => (nomatch he), fun hnone => (hnone q h).elim⟩
  noted via := by rw [noteAfter_eq_iff, h.exists_iff, exists_ok_iff, via_answer_eq_some_iff, hlast]
  decided via hvia := by
    rw [noteAfter_eq_iff, exists_ok_iff] at hvia
    rw [answer_eq_of_via hvia]
  kept hnone before := by
    have hvia : (w.evaluator.answer q).via = none := by
      refine Option.eq_none_iff_forall_ne_some.mpr fun via hvia => hnone ⟨q, via, h, ?_⟩
      rw [← hlast]
      exact via_answer_eq_some_iff.mp hvia
    simp [noteAfter, hvia]
  asked _ _ := hcount
  unasked _ he := nomatch he
  store := hstore

/-- What a refusal comes to. -/
theorem of_forall_not_asks (h : ∀ q, ¬ c.Asks w q) (e : RequestError) :
    Checked w c es (.error e) w where
  allowed := iff_of_false (fun ⟨_, hd, _⟩ => nomatch hd) fun ⟨q, hq, _⟩ => h q hq
  denied := iff_of_false (fun ⟨_, hd, _⟩ => nomatch hd) fun ⟨q, hq, _⟩ => h q hq
  refused := ⟨fun _ => h, fun _ => ⟨e, rfl⟩⟩
  noted via := by
    rw [noteAfter_eq_iff]
    exact iff_of_false (fun ⟨_, hd, _⟩ => nomatch hd) fun ⟨q, hq, _⟩ => h q hq
  decided via hvia := by
    obtain ⟨_, hd, -⟩ := noteAfter_eq_iff.mp hvia
    cases hd
  kept _ _ := rfl
  asked _ hd := nomatch hd
  unasked _ _ := ⟨fun _ => rfl, rfl⟩
  store := rfl

end Checked

/-- **Checks deny by default.**  Take an engine over entries and rights in memory, with an evaluator
that answers from a script, and any history of this script.  If a check finds the target, the
account and the right, and if values for attributes come with a right to write attributes only, then
it is answered: the right is allowed iff the last answer to the question allows it, or names a grant
that does, and it is denied if there is no answer.  The grant that the last answer names is noted
for the caller, and it decides the answer; otherwise the caller's note stays as it was.  Any other
check is refused, leaves the note alone and does not ask the evaluator.  No check calls the
store. -/
theorem checks_deny_by_default {S : Type} (supports : Bool) (store : StoreService S)
    (config : Config) (world : World Directory Catalog Script (Recorded S)) (base : Script)
    (es : List Script.Edit) (c : Check) :
    let engine := Engine.scripted supports (Recorded.service store) config
    let w := { world with evaluator := { base with decisions := [] }.edits es }
    let checked := (engine.check c).run w
    Checked w c es checked.1 checked.2 ∧ checked.2.store.calls = w.store.calls := by
  intro engine w checked
  have hlast (q : Question) (via : Option DecidingGrant) :
      w.evaluator.settled? q = some via ↔ SettledLast es q via := settled?_edits_iff rfl
  have hchecked : Checked w c es checked.1 checked.2 := by
    by_cases h : ∃ q, c.Asks w q
    · obtain ⟨q, hq⟩ := h
      obtain ⟨log, hrun⟩ := run_check_of_asks supports (Recorded.service store) config hq
      unfold checked
      rw [hrun]
      exact .of_asks hq (hlast q) rfl rfl
    · rw [not_exists] at h
      obtain ⟨e, hrun⟩ := run_check_of_forall_not_asks supports (Recorded.service store) config h
      unfold checked
      rw [hrun]
      exact .of_forall_not_asks h e
  exact ⟨hchecked, congrArg Recorded.calls hchecked.store⟩

/-- Leave that was given first is replaced by a denial, and given again to another account only. -/
theorem later_denial_replaces_leave :
    let q : Question := ⟨"u-da", "u-user", "renameAccount"⟩
    let via : DecidingGrant :=
      ⟨.domain, "example.com", .user, "da@example.com", "renameAccount", true⟩
    let es : List Script.Edit :=
      [.settle q none, .settle q (some via), .settle { q with granteeId := "u-user" } none]
    let w : World Directory Catalog Script (Recorded Ledger) :=
      ⟨Sample.directory, Sample.catalog, Script.empty.edits es, ⟨.empty, []⟩, []⟩
    let engine := Engine.scripted true (Recorded.service Ledger.service) ⟨true, true⟩
    let checked := (engine.check ⟨⟨.account, .byName, "user@example.com"⟩,
      ⟨.byName, "da@example.com"⟩, "renameAccount", some ∅⟩).run w
    checked.1 = .ok ⟨false, some via⟩ ∧ checked.2.store.calls = [] := by
  intro q via es w engine checked
  obtain ⟨hchecked, hcalls⟩ := checks_deny_by_default true Ledger.service ⟨true, true⟩ w .empty es
    ⟨⟨.account, .byName, "user@example.com"⟩, ⟨.byName, "da@example.com"⟩, "renameAccount", some ∅⟩
  have hlast : SettledLast es q (some via) :=
    ⟨rfl, [_], [_], rfl, by simp [Script.Edit.Settles, q]⟩
  refine ⟨hchecked.decided via ((hchecked.noted via).mpr ⟨q, ?_, hlast⟩), hcalls⟩
  exact ⟨_, _, _, by rfl, by rfl, by rfl, .inr (.inl rfl), rfl⟩

end Delegation
