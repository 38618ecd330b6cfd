/-
# The directory

A directory of targets and grantees.  The configuration and the global grant target are always
there, and the two grantees that stand for everybody always resolve.

## Key constructions

* `Directory` — the entries.
* `Directory.lookupTarget`, `Directory.lookupGrantee` — how entries are found.
* `Directory.pseudoTarget` — a stand-in for an entry that does not exist yet.
* `Directory.service` — the directory as a service.
-/
import Delegation.Service

namespace Delegation

/-- The entries of a directory. -/
structure Directory where
  targets : Keyed TargetEntry.key
  grantees : Keyed GranteeEntry.key

namespace Directory

/-! ## Entries -/

/-- Adds a target in the place of one with its type and key. -/
def addTarget (d : Directory) (t : TargetEntry) : Directory :=
  { d with targets := d.targets.insert t }

/-- Adds a grantee in the place of one with its type and identifier. -/
def addGrantee (d : Directory) (g : GranteeEntry) : Directory :=
  { d with grantees := d.grantees.insert g }

/-- Removes a grantee.  Grants that name it are left behind. -/
def removeGrantee (d : Directory) (k : GranteeKey) : Directory :=
  { d with grantees := d.grantees.erase k }

/-- The entry of the configuration. -/
def configEntry : TargetEntry := .plain .config none "globalconfig"

/-- The entry for grants on everything. -/
def globalEntry : TargetEntry := .plain .globalAcl none "globalacltarget"

/-- The directory with the entries that always exist. -/
def initial : Directory :=
  (Directory.mk .empty .empty).addTarget configEntry |>.addTarget globalEntry

/-- The grantees that are no entries of a directory. -/
def builtIn? : GranteeType → Option GranteeEntry
  | .authenticated =>
    some (.plain .authenticated "00000000-0000-0000-0000-000000000000" "all authenticated users")
  | .everyone => some (.plain .everyone "99999999-9999-9999-9999-999999999999" "public")
  | _ => none

/-! ## Lookups -/

/-- What is missing when no target of a type is found. -/
def missingTarget : TargetType → MissingKind
  | .account | .calendarResource => .account
  | .distributionList => .group
  | .domain => .domain
  | .classOfService => .classOfService
  | _ => .target

/-- What is missing when no grantee of a type is found. -/
def missingGrantee : GranteeType → MissingKind
  | .user => .account
  | .group => .group
  | .domain => .domain
  | .authenticated | .everyone => .account

/-- Finds a target.  Of the types that exist once the locator is ignored.  Of several entries with
the name, or of such a type, the one with the least key is found.  A directory may find any of them,
and no result depends on which it is. -/
def lookupTarget (d : Directory) (type : TargetType) (loc : Locator) :
    Except ServiceError TargetEntry :=
  if type.hasId then
    let found :=
      match loc.mode with
      | .byId => d.targets.get? ⟨type, loc.key⟩
      | .byName => d.targets.toList.find? fun t => t.type = type ∧ t.name = loc.key
    match found with
    | some t => .ok t
    | none => .error (.notFound (missingTarget type) loc.key)
  else
    match d.targets.toList.find? fun t => t.type = type with
    | some t => .ok t
    | none => .error (.notFound .target type.code)

/-- Finds a grantee.  Of several entries with the name the one with the least key is found.  A
directory may find any of them, and no result depends on which it is. -/
def lookupGrantee (d : Directory) (type : GranteeType) (loc : Locator) :
    Except ServiceError GranteeEntry :=
  match builtIn? type with
  | some g => .ok g
  | none =>
    let found :=
      match loc.mode with
      | .byId => d.grantees.get? ⟨type, loc.key⟩
      | .byName => d.grantees.toList.find? fun g => g.type = type ∧ g.name = loc.key
    match found with
    | some g => .ok g
    | none => .error (.notFound (missingGrantee type) loc.key)

/-- A stand-in for an entry of a type that does not exist yet, once its domain and its class of
service have been found. -/
def standIn (type : TargetType) (domain : Option TargetEntry) : Except ServiceError TargetEntry :=
  match type with
  | .account | .calendarResource | .distributionList =>
    match domain with
    | some domain => .ok ⟨type, none, "pseudo.pseudo@" ++ domain.name, some domain.name⟩
    | none => .error (.unsupported ("a domain is required for a pseudo " ++ type.code ++ " target"))
  | .domain =>
    let parent := (domain.map TargetEntry.name).getD "pseudo"
    .ok (.plain .domain none ("pseudo." ++ parent))
  | .classOfService | .server | .xmppComponent | .zimlet => .ok (.plain type none "pseudo")
  | .config | .globalAcl =>
    .error (.unsupported ("cannot create a pseudo " ++ type.code ++ " target"))

/-- A stand-in for an entry of a type, in a domain and a class of service. -/
def pseudoTarget (d : Directory) (type : TargetType) (domain classOfService : Option Locator) :
    Except ServiceError TargetEntry := do
  let domain ← domain.mapM (d.lookupTarget .domain)
  let _ ← classOfService.mapM (d.lookupTarget .classOfService)
  standIn type domain

/-- The directory as a service. -/
def service : DirectoryService Directory where
  lookupTarget type loc := .ask fun d => d.lookupTarget type loc
  lookupGrantee type loc := .ask fun d => d.lookupGrantee type loc
  pseudoTarget type domain classOfService := .ask fun d => d.pseudoTarget type domain classOfService

end Directory

end Delegation
