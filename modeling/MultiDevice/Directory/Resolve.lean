import MultiDevice.Directory.Basic

/-!
# From accounts to devices

A message to an account goes to all of its devices that take part. Looking up stops at the first
account that fails, because a device left out silently would miss the message.

## Main definitions

* `StalenessPolicy`: which devices still count
* `Advertisement.isCurrent`: whether a device counts
* `Directory.resolve`: the devices of a set of accounts, within a time limit
-/

namespace MultiDevice

/-- Which devices still count. -/
structure StalenessPolicy where
  /-- How long a device may have been inactive, if that matters. -/
  maxInactivity : Option Duration
  /-- Whether a device must have a bundle. -/
  requireBundle : Bool
  deriving DecidableEq, Repr

/-- Ninety days without activity at most, and a bundle. -/
def StalenessPolicy.standard : StalenessPolicy :=
  { maxInactivity := some (.ofDays 90), requireBundle := true }

/-- Whether a device was active recently enough: it was not if its last activity is known, is past
and lies back too far. -/
def Advertisement.isFresh (a : Advertisement) (limit : Option Duration) (now : Time) : Bool :=
  match limit, a.lastActive with
  | some limit, some lastActive =>
    decide ((now.since lastActive).nanoseconds ≤ limit.nanoseconds)
  | _, _ => true

/-- Whether a device counts: it takes part, has a bundle if it must, and was active recently. -/
def Advertisement.isCurrent (a : Advertisement) (p : StalenessPolicy) (now : Time) : Bool :=
  !a.withdrawn && (a.hasBundle || !p.requireBundle) && a.isFresh p.maxInactivity now

namespace Directory

/-- A failed lookup as a failure to resolve an account. -/
def resolutionFailure (account : Account) (err : Error) : Error :=
  if err.area? = some .resolution then err else .lookupFailedBecause account err.message

/-- The devices of an account that count. -/
def currentDevices (d : Directory) (p : StalenessPolicy) (now : Time) (account : Account) :
    Except Error (List DeviceAddress) :=
  match d.listDevices account with
  | .error err => .error (resolutionFailure account err)
  | .ok entries =>
    .ok ((entries.filter (·.isCurrent p now)).map fun a => { account, device := a.device })

/-- The devices of several accounts, looked up one after the other. The limit is on the time that
all lookups take together. -/
def resolveList (d : Directory) (p : StalenessPolicy) (now : Time) (limit : Duration) :
    Duration → List Account → Except Error DeviceSet
  | _, [] => .ok ∅
  | elapsed, account :: rest =>
    let elapsed := elapsed.add (d.lookupTime account)
    if limit.nanoseconds < elapsed.nanoseconds then .error (.lookupTimedOut limit)
    else
      match d.currentDevices p now account with
      | .error err => .error err
      | .ok found => (d.resolveList p now limit elapsed rest).map fun devices =>
          devices.insertMany found

/-- The devices of a set of accounts that count, unless a lookup fails or all of them together take
longer than the limit. -/
def resolve (d : Directory) (p : StalenessPolicy) (now : Time) (limit : Duration)
    (accounts : AccountSet) : Except Error DeviceSet :=
  d.resolveList p now limit .zero accounts.toList

end Directory

end MultiDevice
