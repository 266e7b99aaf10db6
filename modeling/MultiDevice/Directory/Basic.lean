import MultiDevice.Bundle

/-!
# The directory

Devices publish their bundles and the device lists of their accounts in a directory that all of
them share. Lookups take time and may fail, and publications may be refused.

## Main definitions

* `Advertisement`: one entry of a device list
* `Directory`: what is published, and how lookups and publications go wrong
* `Directory.listDevices`, `Directory.fetchBundle`: looking up
* `Directory.publishBundle`, `Directory.publishDeviceList`: publishing
-/

namespace MultiDevice

/-- One entry of the device list of an account. -/
structure Advertisement where
  /-- The number of the device. -/
  device : UInt32
  /-- Whether the device has announced that it no longer takes part. -/
  withdrawn : Bool
  /-- Whether the device has published a bundle. -/
  hasBundle : Bool
  /-- When the device was last seen active, if that is known. -/
  lastActive : Option Time
  deriving DecidableEq, Repr

/-- The entry of a device that takes part, has a bundle and is active now. -/
def Advertisement.active (device : UInt32) (now : Time) : Advertisement :=
  { device, withdrawn := false, hasBundle := true, lastActive := some now }

/-- What encryption has to know of a group chat room. -/
structure Room where
  /-- Whether members see each other's accounts. -/
  nonAnonymous : Bool
  /-- Whether only members can enter. -/
  membersOnly : Bool
  deriving DecidableEq, Repr

/-- A room that nothing is said about. -/
def Room.standard : Room := { nonAnonymous := false, membersOnly := false }

/-- Whether a room is fit for encrypted messages. -/
def Room.supportsEncryption (r : Room) : Bool := r.nonAnonymous && r.membersOnly

/-- What is published, and how lookups and publications go wrong. -/
structure Directory where
  /-- The device list of every account. -/
  deviceLists : Std.ExtTreeMap Account (List Advertisement)
  /-- The bundle of every device. -/
  bundles : Std.ExtTreeMap DeviceAddress DeviceBundle
  /-- Accounts that cannot be looked up. -/
  failingAccounts : AccountSet
  /-- Accounts whose device list cannot be read at all, and what is reported instead. -/
  faults : Std.ExtTreeMap Account Error
  /-- Whether publications are refused. -/
  refusesPublication : Bool
  /-- How long it takes to look up a device list. -/
  latency : Duration
  /-- How many bundles were published. -/
  publications : Nat
  /-- Client resources that announced support for encryption. -/
  capableResources : Std.ExtTreeSet String
  /-- The known rooms. -/
  rooms : Std.ExtTreeMap String Room
  /-- Servers that can host bundles. -/
  hostingServers : Std.ExtTreeSet String

namespace Directory

/-- A directory in which nothing is published and nothing goes wrong. -/
def empty : Directory :=
  { deviceLists := ∅, bundles := ∅, failingAccounts := ∅, faults := ∅
    refusesPublication := false, latency := .zero, publications := 0
    capableResources := ∅, rooms := ∅, hostingServers := ∅ }

/-- The published device list of an account; unknown accounts have no devices. -/
def devicesOf (d : Directory) (account : Account) : List Advertisement :=
  (d.deviceLists[account]?).getD []

/-- Puts an entry at the end of the device list of an account, in place of the entries of the same
device. -/
def advertise (d : Directory) (account : Account) (a : Advertisement) : Directory :=
  let others := (d.devicesOf account).filter (·.device != a.device)
  { d with deviceLists := d.deviceLists.insert account (others ++ [a]) }

/-- How long it takes to look up the device list of an account: a fault is reported at once. -/
def lookupTime (d : Directory) (account : Account) : Duration :=
  if account ∈ d.faults then .zero else d.latency

/-- Looks up the device list of an account. -/
def listDevices (d : Directory) (account : Account) : Except Error (List Advertisement) :=
  match d.faults[account]? with
  | some err => .error err
  | none =>
    if account ∈ d.failingAccounts then .error (.lookupFailed account)
    else .ok (d.devicesOf account)

/-- Hands out a bundle with the lowest one-time pre-key that is left, which is handed out only
once. -/
def fetchBundle (d : Directory) (device : DeviceAddress) :
    Except Error (PreKeyBundle × Directory) :=
  if device.account ∈ d.failingAccounts then .error (.bundleFetchFailed device)
  else
    match d.bundles[device]? with
    | none => .error (.noBundle device)
    | some bundle =>
      match bundle.oneTimePreKeys.keys.head? with
      | none => .ok (bundle.pick none, d)
      | some id =>
        let rest := { bundle with oneTimePreKeys := bundle.oneTimePreKeys.erase id }
        .ok (bundle.pick (some id), { d with bundles := d.bundles.insert device rest })

/-- Notes in the first entry of a device that it has a bundle. -/
def noteBundle (device : UInt32) : List Advertisement → List Advertisement
  | [] => []
  | a :: rest =>
    if a.device = device then { a with hasBundle := true } :: rest
    else a :: noteBundle device rest

/-- The device lists after a device published its bundle. An account without a list gets none. -/
def listsAfterBundle (d : Directory) (device : DeviceAddress) :
    Std.ExtTreeMap Account (List Advertisement) :=
  match d.deviceLists[device.account]? with
  | none => d.deviceLists
  | some entries => d.deviceLists.insert device.account (noteBundle device.device entries)

/-- Publishes the bundle of a device, in place of the one before. -/
def publishBundle (d : Directory) (device : DeviceAddress) (bundle : DeviceBundle) :
    Except Error Directory :=
  if d.refusesPublication then .error (.bundleRejected device)
  else
    .ok { d with
      bundles := d.bundles.insert device bundle
      publications := d.publications + 1
      deviceLists := d.listsAfterBundle device }

/-- Publishes the device list of an account, in place of the one before. -/
def publishDeviceList (d : Directory) (account : Account) (devices : List Advertisement) :
    Except Error Directory :=
  if d.refusesPublication then .error (.deviceListRejected account)
  else .ok { d with deviceLists := d.deviceLists.insert account devices }

/-- What is known of a room. -/
def roomInfo (d : Directory) (room : String) : Except Error Room :=
  match d.rooms[room]? with
  | some info => .ok info
  | none => .error (.unknownRoom room)

/-- Whether a room is fit for encrypted messages. -/
def supportsRoom (d : Directory) (room : String) : Except Error Bool :=
  (d.roomInfo room).map Room.supportsEncryption

/-- Whether a client resource announced support for encryption. -/
def supportsResource (d : Directory) (resource : String) : Bool :=
  d.capableResources.contains resource

/-- Whether the server of a domain can host bundles. -/
def supportsServer (d : Directory) (domain : String) : Bool := d.hostingServers.contains domain

end Directory

end MultiDevice
