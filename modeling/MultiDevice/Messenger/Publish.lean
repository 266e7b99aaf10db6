import MultiDevice.Messenger.Basic

/-!
# Publishing

A device publishes its bundle and sees to it that the device list of its account names it. Before,
it fills up a pool of one-time pre-keys that ran low.

## Main definitions

* `Messenger.bundle`: the bundle with a given signed pre-key
* `Messenger.publishBundle`, `Messenger.publishIfNeeded`: publishing
* `Messenger.regenerate`: a new identity for a device that starts afresh
* `Messenger.purgeDevices`: a device list without the other devices
-/

namespace MultiDevice.Messenger

/-- Fills up the pool of one-time pre-keys if it ran low. -/
def fillPool : Action Unit := do
  let s ← get
  let c := s.messenger.settings
  if s.messenger.store.oneTimePreKeys.count < c.minOneTimePreKeys then
    let _ ← Action.onStore (Store.replenish c.maxOneTimePreKeys)

/-- Publishes the device list of the own account. -/
def publishDevices (devices : List Advertisement) : Action Unit := do
  let s ← get
  let directory ← Action.ofExcept
    (s.directory.publishDeviceList s.messenger.address.account devices)
  modify fun s => s.setDirectory directory

/-- Sees to it that the device list of the account names the device as one that takes part; its
place is then at the end. -/
def ensureListed : Action Unit := do
  let s ← get
  let own := s.messenger.address
  let devices ← Action.ofExcept (s.directory.listDevices own.account)
  if devices.any fun a => a.device == own.device && !a.withdrawn then return ()
  else
    publishDevices (devices.filter (·.device != own.device) ++ [.active own.device s.now])

/-- Publishes the device list of the account with only this device on it. -/
def purgeDevices : Action Unit := do
  let s ← get
  publishDevices [.active s.messenger.address.device s.now]

/-- Publishes a bundle. While the directory has it the bundle needs no publishing; it does again
when the directory refuses. -/
def submitBundle (bundle : DeviceBundle) : Action Unit := do
  let s ← get
  match s.directory.publishBundle s.messenger.address bundle with
  | .ok directory => set ((s.setNeedsPublishing false).setDirectory directory)
  | .error err =>
    set (s.setNeedsPublishing true)
    throw err

variable [CipherSuite]

/-- The bundle of a device with a given signed pre-key. -/
def bundle (store : Store) (signed : SignedPreKey) : DeviceBundle :=
  { identity := store.identity.publicKey
    signingKey := store.identity.verifyingKey
    signedPreKey := { id := signed.id, key := signed.publicKey }
    signature := signed.signature store.identity
    oneTimePreKeys := store.oneTimePreKeys.publicKeys }

/-- Publishes the bundle with a given signed pre-key and sees to it that the device is listed. -/
def publishWith (signed : SignedPreKey) : Action Unit := do
  fillPool
  submitBundle (bundle (← get).messenger.store signed)
  ensureListed

/-- Publishes the bundle with the signed pre-key in use. -/
def publishBundle : Action Unit := do
  let current ← Action.ofExcept (← get).messenger.store.signedPreKeys.current?
  publishWith current

/-- Publishes the bundle if it has to be, and answers whether it had to. -/
def publishIfNeeded : Action Bool := do
  if (← get).messenger.needsPublishing then
    publishBundle
    return true
  else return false

/-- Starts afresh with a new identity and new pre-keys, without sessions, and publishes. -/
def regenerate : Action Unit := do
  let s ← get
  Action.changeStore fun store =>
    return ((), ← store.reprovision s.messenger.settings.maxOneTimePreKeys s.now)
  modify fun s => (s.setPendingRotation none).setNeedsPublishing true
  publishBundle

end MultiDevice.Messenger
