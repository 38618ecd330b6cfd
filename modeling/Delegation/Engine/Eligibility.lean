/-
# Who may hold what

The rules that decide whether a right can be granted at all, whoever asks for it.

## Key constructions

* `Right.checkGrantee` — whether a grantee may hold an admin right.
* `Right.checkTarget` — whether the right may be granted on a target type.
-/
import Delegation.Engine.Error
import Delegation.Service.Entry

namespace Delegation

namespace Right

/-- Whether a grantee may hold an admin right.  The right for administering another domain goes
to domains and to nobody else; domains are given no other admin right. -/
def checkGrantee (r : Right) (g : GranteeEntry) : Except InvalidRequest Unit :=
  if r.isCrossDomainAdmin then
    if g.type = .domain then .ok () else .error (.crossDomainNeedsDomain r.name g.type)
  else if g.type = .domain then .error (.domainNotAllowed r.name)
  else if g.mayHoldAdminRights then .ok ()
  else .error (.granteeNotAdmin g.name)

/-- Whether the right may be granted on targets of a type. -/
def checkTarget (r : Right) (type : TargetType) : Except InvalidRequest Unit :=
  if r.grantableOn type then .ok ()
  else .error (.targetTypeNotGrantable r.name type r.targetTypesText)

end Right

end Delegation
