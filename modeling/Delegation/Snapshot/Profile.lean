/-
# Profiles of rights

A profile lists rights without saying for whom.  Where it covers every attribute, a caller
decides whether the attributes are spelled out as well.

## Key constructions

* `RightsProfile` — the rights of a profile.
* `RightsProfile.steps` — how a profile fills a snapshot.
-/
import Delegation.Snapshot

namespace Delegation

/-- Rights to be reported for some target. -/
structure RightsProfile where
  preset : List String
  /-- The attributes that are spelled out for a side that covers every attribute. -/
  allAttrs : List String
  setEvery : Bool
  getEvery : Bool
  setAttrs : List EffectiveAttr
  getAttrs : List EffectiveAttr
deriving DecidableEq

namespace RightsProfile

/-- The attributes of one side: with `every` and `expand` all attributes without details come
first, so that the profile's own attributes keep theirs. -/
def sideAttrs (p : RightsProfile) (every expand : Bool) (attrs : List EffectiveAttr) :
    List EffectiveAttr :=
  (if every && expand then p.allAttrs.map .bare else []) ++ attrs

/-- The steps by which the profile fills a snapshot. -/
def steps (p : RightsProfile) (expandSet expandGet : Bool) : List SnapshotStep :=
  p.preset.map .preset ++
    (if p.setEvery then [.setEvery] else []) ++
    (p.sideAttrs p.setEvery expandSet p.setAttrs).map .set ++
    (if p.getEvery then [.getEvery] else []) ++
    (p.sideAttrs p.getEvery expandGet p.getAttrs).map .get

/-- Adds the rights of the profile to a snapshot. -/
def fill (p : RightsProfile) (expandSet expandGet : Bool) (s : Snapshot) : Snapshot :=
  s.build (p.steps expandSet expandGet)

/-- The snapshot with these rights for a grantee whose name is its identifier. -/
def snapshot (p : RightsProfile) (targetType : TargetType) (targetName grantee : String) :
    Snapshot :=
  p.fill false false (.start targetType none targetName grantee grantee)

end RightsProfile

end Delegation
