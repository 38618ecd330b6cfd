/-
# Refused requests

Why the engine does not answer a request.

## Key constructions

* `InvalidRequest` — the request makes no sense for what it names.
* `Denial` — the actor may not do this.
* `RequestError` — all reasons together.
* `RequestError.ofService` — the reason behind the failure of a service.
-/
import Delegation.Grant
import Delegation.Service.Error

namespace Delegation

/-- A request that makes no sense for the entries and the right that it names. -/
inductive InvalidRequest
  | targetTypeNotGrantable (right : String) (type : TargetType) (valid : String)
  | granteeNotAdmin (grantee : String)
  | crossDomainNeedsDomain (right : String) (type : GranteeType)
  | domainNotAllowed (right : String)
  /-- A grantee that is gone was addressed by its name. -/
  | granteeNameUnresolvable (key : String)
  | attrsNotAllowed (right : String)
  | notAnAccount (key : String)
deriving DecidableEq, Repr

/-- The text that reports an invalid request. -/
def InvalidRequest.message : InvalidRequest → String
  | targetTypeNotGrantable right type valid =>
    "right " ++ right ++ " cannot be granted on a " ++ type.code ++
      " entry. It can only be granted on target types: " ++ valid
  | granteeNotAdmin grantee =>
    "grantee " ++ grantee ++ " must be a delegated admin account or admin group, " ++
      "it cannot be a global admin account"
  | crossDomainNeedsDomain right type =>
    "grantee for right " ++ right ++ " must be a domain, not " ++ type.code
  | domainNotAllowed right => "right " ++ right ++ " cannot be granted to a domain"
  | granteeNameUnresolvable key =>
    "cannot find grantee by name: " ++ key ++
      ", try revoke by grantee id if you want to remove the orphan grant"
  | attrsNotAllowed right => "attr map is not allowed for checking a non-setAttrs right: " ++ right
  | notAnAccount key => "grantee " ++ key ++ " is not an account"

/-- A change of grants that the actor may not make. -/
inductive Denial
  | grant (right : String)
  | revoke (right : String)
  /-- The actor holds the right only in part. -/
  | partially (reason : String)
deriving DecidableEq, Repr

/-- The text that reports a denial. -/
def Denial.message : Denial → String
  | grant right => "insufficient right to grant " ++ right
  | revoke right => "insufficient right to revoke " ++ right
  | partially reason => reason

/-- Why a request was not carried out. -/
inductive RequestError
  | notFound (kind : MissingKind) (key : String)
  | invalid (reason : InvalidRequest)
  | denied (reason : Denial)
  /-- There is no such grant on the target. -/
  | noSuchGrant (grant : Grant)
  /-- The evaluator cannot tell who may pass rights on. -/
  | noDelegation
  /-- Any other failure of a service. -/
  | service (cause : ServiceError)
deriving DecidableEq, Repr

namespace RequestError

/-- The text that reports a refused request. -/
def message : RequestError → String
  | notFound kind key => missingText kind key
  | invalid reason => "invalid request: " ++ reason.message
  | denied reason => "permission denied: " ++ reason.message
  | noSuchGrant grant => "no such grant: " ++ grant.text
  | noDelegation =>
    "configuration error: the rule evaluator does not support delegated administration"
  | service _ => "store error"

/-- The reason behind the failure of a service. -/
def ofService : ServiceError → RequestError
  | .notFound kind key => .notFound kind key
  | .permissionDenied reason => .denied (.partially reason)
  | cause => .service cause

end RequestError

end Delegation
