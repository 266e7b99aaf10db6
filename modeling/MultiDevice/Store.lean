import MultiDevice.Key.OneTime
import MultiDevice.Key.Signed
import MultiDevice.Session.Stored
import MultiDevice.Trust

/-!
# What a device keeps

A device keeps its identity, its pre-keys, its sessions in their written form, and its trust
decisions.

## Main definitions

* `Store`: what a device keeps
* `Store.provision`, `Store.reprovision`: new keys for a new device, and for one that starts afresh
* `Store.loadSession`, `Store.saveSession`: the sessions with a device
-/

namespace MultiDevice

/-- What a device keeps. -/
structure Store where
  /-- The identity of the device. -/
  identity : IdentityKey
  /-- Its signed pre-keys. -/
  signedPreKeys : SignedPreKeyRing
  /-- Its unused one-time pre-keys. -/
  oneTimePreKeys : OneTimePreKeyPool
  /-- The written forms of its session records. -/
  sessions : Std.ExtTreeMap DeviceAddress Bytes
  /-- Its trust decisions. -/
  trust : TrustTable

namespace Store

/-- A pool of `count` new keys, the first of them numbered `first`. -/
def newPool (first : UInt32) (count : Nat) : Draw OneTimePreKeyPool := fun e =>
  match OneTimePreKeyPool.replenish count (.startingAt first, e) with
  | .ok _ (pool, e) => .ok pool e
  | .error err (_, e) => .error err e

/-- A new device: `count` one-time pre-keys, an identity and a signed pre-key, made in this
order. -/
def provision (count : Nat) (now : Time) : Draw Store := do
  let oneTimePreKeys ← newPool 1 count
  let identity ← IdentityKey.generate
  let signedPreKeys ← SignedPreKeyRing.startingAt 1 now
  return { identity, signedPreKeys, oneTimePreKeys, sessions := ∅, trust := ∅ }

/-- The device with a new identity and new pre-keys, numbered on from the old ones, and without
sessions. The trust decisions stay. -/
def reprovision (s : Store) (count : Nat) (now : Time) : Draw Store := do
  let signedPreKeys ← SignedPreKeyRing.startingAt s.signedPreKeys.nextId now
  let oneTimePreKeys ← newPool s.oneTimePreKeys.nextId count
  let identity ← IdentityKey.generate
  return { s with identity, signedPreKeys, oneTimePreKeys, sessions := ∅ }

/-- Makes the next signed pre-key without putting it in use. -/
def createSignedPreKey (s : Store) (now : Time) : Draw (SignedPreKey × Store) := do
  let (key, signedPreKeys) ← s.signedPreKeys.create now
  return (key, { s with signedPreKeys })

/-- Puts a retained signed pre-key in use and answers the number of the one it supersedes. -/
def promoteSignedPreKey (s : Store) (id : UInt32) : Except Error (Option UInt32 × Store) :=
  (s.signedPreKeys.promote id).map fun (previous, signedPreKeys) =>
    (previous, { s with signedPreKeys })

/-- Schedules a superseded signed pre-key to be dropped. -/
def expireSignedPreKey (s : Store) (id : UInt32) (expiry : Time) : Except Error Store :=
  (s.signedPreKeys.expire id expiry).map fun signedPreKeys => { s with signedPreKeys }

/-- Drops the signed pre-keys whose time has come, and answers their numbers. -/
def purgeSignedPreKeys (s : Store) (now : Time) : List UInt32 × Store :=
  let (dropped, signedPreKeys) := s.signedPreKeys.purge now
  (dropped, { s with signedPreKeys })

/-- Removes a one-time pre-key, and answers whether it was there. -/
def removeOneTimePreKey (s : Store) (id : UInt32) : Bool × Store :=
  let (removed, oneTimePreKeys) := s.oneTimePreKeys.remove id
  (removed, { s with oneTimePreKeys })

/-- Whether there are sessions with a device. -/
def containsSession (s : Store) (device : DeviceAddress) : Bool := s.sessions.contains device

/-- The sessions with a device, if there are any and they can be read. -/
def loadSession (s : Store) (device : DeviceAddress) : Except Error (Option SessionRecord) :=
  match s.sessions[device]? with
  | none => .ok none
  | some bs => (SessionRecord.deserialize bs).map some

/-- Keeps the sessions with a device. -/
def saveSession (s : Store) (device : DeviceAddress) (record : SessionRecord) : Store :=
  { s with sessions := s.sessions.insert device record.serialize }

/-- Forgets the sessions with a device. -/
def deleteSession (s : Store) (device : DeviceAddress) : Store :=
  { s with sessions := s.sessions.erase device }

/-- Forgets the sessions with all devices of an account. -/
def deleteSessions (s : Store) (account : Account) : Store :=
  { s with sessions := s.sessions.filter fun device _ => device.account != account }

/-- The devices of an account that there are sessions with, in order. -/
def sessionDevices (s : Store) (account : Account) : List DeviceAddress :=
  s.sessions.keys.filter (·.account == account)

/-- Fills the pool of one-time pre-keys up to `target` and answers how many were added. -/
def replenish (target : Nat) : EStateM Error (Store × Entropy) Nat := fun (s, e) =>
  match OneTimePreKeyPool.replenish target (s.oneTimePreKeys, e) with
  | .ok added (oneTimePreKeys, e) => .ok added ({ s with oneTimePreKeys }, e)
  | .error err (oneTimePreKeys, e) => .error err ({ s with oneTimePreKeys }, e)

end Store

end MultiDevice
