/-
# The sample domain

A small directory with two domains and a few admins, and a catalog with a right of every shape.

## Key constructions

* `Sample.rights` — the catalog.
* `Sample.directory` — the directory.
* `Sample.delegatedAdmin`, `Sample.globalAdmin` — two accounts that administer.
-/
import Delegation.Catalog
import Delegation.Directory

namespace Delegation.Sample

/-! ## Rights -/

/-- An admin right on at least one type of target. -/
def adminRight (name description : String) (kind : RightKind) (targets : List TargetType) : Right :=
  ⟨name, description, kind, .ofList id targets, false⟩

/-- The types on which the rights over accounts may be granted. -/
def accountTargets : List TargetType := [.account, .distributionList, .domain]

/-- The attributes of an account. -/
def accountAttrs : NameSet := .ofList ["cn", "displayName", "sn", "zimbraMailQuota"]

/-- The rights of the sample. -/
def rights : List Right :=
  [ adminRight "createAccount" "create an account" .preset [.domain],
    adminRight "renameAccount" "rename an account" .preset accountTargets,
    adminRight "deleteAccount" "delete an account" .preset accountTargets,
    adminRight "modifyAccountQuota" "set quota attributes"
      (.setAttrs (.listed (.ofList ["zimbraMailQuota"]))) accountTargets,
    adminRight "getAccount" "read every account attribute"
      (.getAttrs (.every accountAttrs)) accountTargets,
    adminRight "domainAdminAccountRights" "account rights of a domain admin"
      (.combo ["createAccount", "deleteAccount"]) [.domain],
    adminRight "listServer" "list servers" .preset [.server, .globalAcl],
    adminRight Right.crossDomainAdmin "administer another domain" .preset [.domain],
    (adminRight "viewFreeBusy" "see free/busy" .preset [.account]).asUserRight ]

/-- The rights of the sample by name. -/
def catalog : Catalog := .ofList Right.name rights

/-! ## Entries -/

/-- The domain in which the sample's accounts live. -/
def domainName : String := "example.com"

/-- An account or group of the sample as a target. -/
def member (type : TargetType) (id name : String) : TargetEntry :=
  ⟨type, some id, name, some domainName⟩

/-- The targets of the sample. -/
def targets : List TargetEntry :=
  [ .plain .domain (some "d-example") domainName,
    .plain .domain (some "d-other") "other.com",
    .plain .server (some "s-mail") "mail.example.com",
    .plain .classOfService (some "c-default") "default",
    member .account "u-da" "da@example.com",
    member .account "u-admin" "admin@example.com",
    member .account "u-user" "user@example.com",
    member .distributionList "g-admins" "admins@example.com" ]

/-- An account that administers by the rights granted to it. -/
def delegatedAdmin : GranteeEntry := ⟨.user, "u-da", "da@example.com", .delegated⟩

/-- An account that may do everything. -/
def globalAdmin : GranteeEntry := ⟨.user, "u-admin", "admin@example.com", .global⟩

/-- The grantees of the sample. -/
def grantees : List GranteeEntry :=
  [ delegatedAdmin,
    globalAdmin,
    .plain .user "u-user" "user@example.com",
    ⟨.group, "g-admins", "admins@example.com", .group⟩,
    .plain .domain "d-other" "other.com" ]

/-- The directory of the sample. -/
def directory : Directory :=
  grantees.foldl Directory.addGrantee (targets.foldl Directory.addTarget .initial)

end Delegation.Sample
