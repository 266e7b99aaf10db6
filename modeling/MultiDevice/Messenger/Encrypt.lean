import MultiDevice.Messenger.Basic

/-!
# Encrypting for accounts

A message goes to every device of the recipients that counts, and to the other devices of the own
account. A device that its key cannot be wrapped for is left out and reported; the others are not
affected.

## Main definitions

* `Encryption`: an envelope and the devices that it leaves out
* `Messenger.wrapFor`: a content key on its way to one device
* `Messenger.encryptFor`: the envelope of a message
-/

namespace MultiDevice

/-- A device that an envelope leaves out, and why. -/
structure DeviceFailure where
  /-- The device. -/
  device : DeviceAddress
  /-- Why its key could not be wrapped. -/
  error : Error
  deriving DecidableEq

/-- An envelope and the devices that it leaves out. -/
structure Encryption where
  /-- The envelope. -/
  envelope : Envelope
  /-- The devices whose key could not be wrapped. -/
  failures : List DeviceFailure
  /-- The devices left out because they are untrusted. -/
  untrusted : DeviceSet

namespace Messenger

/-- The accounts whose devices a message goes to. -/
def audience (m : Messenger) (recipients : List Account) : AccountSet :=
  let accounts : AccountSet := Std.ExtTreeSet.ofList recipients
  if m.settings.selfSync then accounts.insert m.address.account else accounts

/-- The devices of some accounts that count, unless the lookup takes longer than the limit. -/
def resolve (s : Scene) (limit : Duration) (accounts : AccountSet) : Except Error DeviceSet :=
  s.directory.resolve s.messenger.settings.staleness s.now limit accounts

/-- The devices that a message goes to if none is untrusted: those of its audience that count,
without the own one. -/
def resolveOthers (s : Scene) (recipients : List Account) : Except Error DeviceSet :=
  (resolve s s.messenger.settings.resolveTimeout (s.messenger.audience recipients)).map
    fun devices => devices.erase s.messenger.address

variable [CipherSuite]

/-- The bundle to start a session from, if there is no session yet: it is fetched, verified, and its
identity noted. -/
def bundleFor (device : DeviceAddress) : Action (Option PreKeyBundle) := do
  if (← get).messenger.store.containsSession device then return none
  else
    let (bundle, directory) ← Action.ofExcept ((← get).directory.fetchBundle device)
    modify fun s => s.setDirectory directory
    Action.ofExcept bundle.verify
    observeIdentity device bundle.identity
    return some bundle

/-- A content key on its way to one device, in a session that may be started from a bundle. -/
def wrap (key : ContentKey) (device : DeviceAddress) (bundle : Option PreKeyBundle) :
    Action KeyTransport := do
  let c := (← get).messenger.settings
  Action.changeStore fun store => KeyWrap.wrap c.keyWrap store device bundle key

/-- A content key on its way to one device, whose bundle is fetched if it is needed. -/
def wrapFor (key : ContentKey) (device : DeviceAddress) : Action KeyTransport := do
  wrap key device (← bundleFor device)

/-- The content key for each of several devices, and the devices that it could not be wrapped
for. -/
def wrapAll (key : ContentKey) :
    List DeviceAddress → Action (List RecipientKey × List DeviceFailure)
  | [] => return ([], [])
  | device :: rest => fun s =>
    match wrapFor key device s with
    | .ok transport s =>
      ((fun (keys, failures) => ({ recipient := device, transport } :: keys, failures)) <$>
        wrapAll key rest) s
    | .error error s =>
      ((fun (keys, failures) => (keys, { device, error } :: failures)) <$> wrapAll key rest) s

/-- The envelope of a message to several accounts. Nothing is encrypted when a lookup fails or when
some device is undecided and not among those allowed. -/
def encryptFor (recipients : List Account) (plaintext : Bytes) (allowed : DeviceSet) :
    Action Encryption := do
  let s ← get
  let devices ← Action.ofExcept (resolveOthers s recipients)
  let verdict ← Action.ofExcept (s.messenger.store.trust.require devices allowed)
  let key ← Action.draw ContentKey.generate
  let payload ← Action.draw (key.encrypt plaintext s.messenger.address)
  let (keys, failures) ← wrapAll key verdict.accepted.toList
  return {
    envelope :=
      { sender := s.messenger.address, keys, payload, hints := s.messenger.settings.hints }
    failures
    untrusted := verdict.untrusted }

/-- Encrypts a message and hands the envelope over for delivery, which may fail. -/
def send (recipients : List Account) (plaintext : Bytes) (allowed : DeviceSet)
    (deliver : List Account → Envelope → Except Error Unit) : Action Encryption := do
  let encryption ← encryptFor recipients plaintext allowed
  Action.ofExcept (deliver recipients encryption.envelope)
  return encryption

end Messenger

end MultiDevice
