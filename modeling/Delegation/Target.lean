/-
# Target types

A right is granted on a target: a mailbox, a domain, a server and so on.  Each type has a
short code, which is how documents, stored rows and messages spell it.

## Key constructions

* `TargetType` — the ten types, in the order in which reports list them.
* `TargetType.isDomained` — whether entries of the type live inside a domain.
* `TargetType.hasId` — whether there can be several entries of the type.
* `TargetKey` — the type of a target with the key under which its grants are stored.

## Key results

* `TargetType.ofCode?_code` — the codes identify the types.
-/
import Delegation.Keyed

namespace Delegation

open Std

/-- What kind of entry a right is granted on. -/
inductive TargetType
  | account
  | calendarResource
  | classOfService
  | distributionList
  | domain
  | server
  | xmppComponent
  | zimlet
  | config
  | globalAcl
deriving DecidableEq, Inhabited, Repr

namespace TargetType

/-- Every type, in reporting order. -/
def all : List TargetType :=
  [account, calendarResource, classOfService, distributionList, domain, server, xmppComponent,
    zimlet, config, globalAcl]

/-- The code that spells the type. -/
def code : TargetType → String
  | account => "account"
  | calendarResource => "calresource"
  | classOfService => "cos"
  | distributionList => "dl"
  | domain => "domain"
  | server => "server"
  | xmppComponent => "xmppcomponent"
  | zimlet => "zimlet"
  | config => "config"
  | globalAcl => "global"

/-- The type that a code spells. -/
def ofCode? (code : String) : Option TargetType := all.find? fun t => t.code = code

/-- The position in `all`. -/
def index : TargetType → Nat := TargetType.ctorIdx

/-- Whether entries of the type live inside a domain. -/
def isDomained : TargetType → Bool
  | account | calendarResource | distributionList => true
  | _ => false

/-- Whether entries of the type are told apart by an identifier; the configuration and the
global grant target exist once. -/
def hasId : TargetType → Bool
  | config | globalAcl => false
  | _ => true

theorem hasId_of_ne {t : TargetType} (hconfig : t ≠ config) (hglobal : t ≠ globalAcl) :
    t.hasId = true := by
  cases t <;> first | rfl | contradiction

theorem mem_all (t : TargetType) : t ∈ all := by cases t <;> decide

@[simp] theorem ofCode?_code (t : TargetType) : ofCode? t.code = some t := by
  cases t <;> decide

theorem ofCode?_eq_some_iff {code : String} {t : TargetType} :
    ofCode? code = some t ↔ t.code = code := by
  constructor
  · intro h
    simpa using List.find?_some h
  · rintro rfl
    exact ofCode?_code t

theorem code_injective {t t' : TargetType} (h : t.code = t'.code) : t = t' := by
  have hread := congrArg ofCode? h
  rw [ofCode?_code, ofCode?_code] at hread
  exact Option.some.inj hread

theorem index_injective {t t' : TargetType} (h : t.index = t'.index) : t = t' := by
  cases t <;> cases t' <;> first | rfl | exact absurd h (by decide)

/-- Types are ordered as `all` lists them. -/
instance : Ord TargetType := ⟨compareOn index⟩

instance : TransOrd TargetType := inferInstanceAs (TransCmp (compareOn index))

instance : LawfulEqOrd TargetType where
  toReflCmp := inferInstance
  eq_of_compare h := index_injective (eq_of_compareOn h)

end TargetType

/-- A target as the grant store sees it: its type, and the identifier or else the name that
tells it from the other targets of this type. -/
structure TargetKey where
  type : TargetType
  key : String
deriving DecidableEq, Inhabited, Repr

namespace TargetKey

/-- Target keys are ordered by type and then by key. -/
instance : Ord TargetKey := ⟨compareLex (compareOn type) (compareOn key)⟩

instance : TransOrd TargetKey :=
  inferInstanceAs (TransCmp (compareLex (compareOn type) (compareOn key)))

instance : LawfulEqOrd TargetKey where
  toReflCmp := inferInstance
  eq_of_compare {a b} h := by
    obtain ⟨ht, hk⟩ := compareLex_eq_eq.mp h
    cases a; cases b
    simp only [mk.injEq]
    exact ⟨eq_of_compareOn ht,
      eq_of_compareOn hk⟩

end TargetKey

end Delegation
