/-
# Failures of services

The engine asks a directory, a catalog, an evaluator and a grant store.  Each of them can fail,
and a lookup that finds nothing says what kind of entry is missing.

## Key constructions

* `MissingKind` — what a lookup was looking for.
* `ServiceError` — why a service failed.
-/

namespace Delegation

/-- The kind of entry that a lookup did not find. -/
inductive MissingKind
  | account
  | group
  | domain
  | classOfService
  /-- Any other target. -/
  | target
  | right
deriving DecidableEq, Repr

namespace MissingKind

/-- The word for the kind. -/
def label : MissingKind → String
  | account => "account"
  | group => "group"
  | domain => "domain"
  | classOfService => "cos"
  | target => "target"
  | right => "right"

/-- Every kind. -/
def all : List MissingKind := [account, group, domain, classOfService, target, right]

/-- The kind that a word names. -/
def ofLabel? (label : String) : Option MissingKind := all.find? fun k => k.label = label

/-- Whether a grantee lookup that fails with this kind means that the grantee is gone. -/
def isMissingGrantee : MissingKind → Bool
  | account | group | domain => true
  | _ => false

end MissingKind

/-- Why a service failed. -/
inductive ServiceError
  | notFound (kind : MissingKind) (key : String)
  /-- The evaluator refuses, for instance because an actor holds a right only partially. -/
  | permissionDenied (reason : String)
  /-- The service cannot do what it was asked to do. -/
  | unsupported (reason : String)
  /-- What is stored cannot be understood. -/
  | invalidData (reason : String)
  | migration (reason : String)
  /-- Any other failure. -/
  | backend (reason : String)
deriving DecidableEq, Repr

/-- The text that reports a missing entry. -/
def missingText (kind : MissingKind) (key : String) : String :=
  "no such " ++ kind.label ++ ": " ++ key

/-- The text that reports a failure. -/
def ServiceError.message : ServiceError → String
  | notFound kind key => missingText kind key
  | permissionDenied reason => "permission denied: " ++ reason
  | unsupported reason => "unsupported: " ++ reason
  | invalidData reason => "invalid data: " ++ reason
  | migration reason => "migration error: " ++ reason
  | backend reason => "backend error: " ++ reason

end Delegation
