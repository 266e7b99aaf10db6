import MultiDevice.Directory.Resolve
import MultiDevice.KeyWrap

/-!
# Messengers

A messenger is one device at work: its keys and sessions, its settings, and whether what it has
published is still right. It acts on a scene that it shares with other devices.

## Main definitions

* `Settings`: how a messenger behaves
* `Messenger`: one device at work
* `Scene`: a messenger and what it acts on
* `Action`: what a messenger does; what was changed before a failure stays changed
-/

namespace MultiDevice

/-- How a messenger behaves. -/
structure Settings where
  /-- How far ahead of its chain a message may be. -/
  maxSkip : UInt32
  /-- How old the signed pre-key may become. -/
  rotationInterval : Duration
  /-- How long a superseded signed pre-key is kept. -/
  gracePeriod : Duration
  /-- The pool of one-time pre-keys is filled up when it is smaller. -/
  minOneTimePreKeys : Nat
  /-- The size of a full pool. -/
  maxOneTimePreKeys : Nat
  /-- The purpose that keys are agreed for. -/
  info : Bytes
  /-- Whether messages also go to the other devices of the own account. -/
  selfSync : Bool
  /-- How long looking up devices may take. -/
  resolveTimeout : Duration
  /-- Which devices still count. -/
  staleness : StalenessPolicy
  /-- What is said in the clear about envelopes. -/
  hints : Hints
  deriving DecidableEq, Repr

/-- The settings unless others are chosen. -/
def Settings.standard : Settings :=
  { maxSkip := 100
    rotationInterval := .ofDays 7
    gracePeriod := .ofDays 30
    minOneTimePreKeys := 20
    maxOneTimePreKeys := 100
    info := "Cohort-E2E-v1".toUTF8.data.toList
    selfSync := true
    resolveTimeout := .ofSeconds 10
    staleness := .standard
    hints := .standard }

/-- The settings of the sessions. -/
def Settings.keyWrap (c : Settings) : KeyWrap.Settings := { info := c.info, maxSkip := c.maxSkip }

/-- One device at work. -/
structure Messenger where
  /-- The address of the device. -/
  address : DeviceAddress
  /-- How it behaves. -/
  settings : Settings
  /-- What it keeps. -/
  store : Store
  /-- The signed pre-key that an unfinished rotation made. -/
  pendingRotation : Option UInt32
  /-- Whether the published bundle no longer matches the store. -/
  needsPublishing : Bool

/-- A messenger, the directory that it shares with others, the clock and the randomness. -/
structure Scene where
  /-- The messenger that acts. -/
  messenger : Messenger
  /-- The directory. -/
  directory : Directory
  /-- What the clock shows. -/
  now : Time
  /-- The source of randomness. -/
  entropy : Entropy

/-- What a messenger does. What was changed before a failure stays changed. -/
abbrev Action : Type → Type := EStateM Error Scene

namespace Scene

/-- The scene with a changed store. -/
def setStore (s : Scene) (store : Store) : Scene :=
  { s with messenger := { s.messenger with store } }

/-- The scene with a mark whether the bundle has to be published. -/
def setNeedsPublishing (s : Scene) (b : Bool) : Scene :=
  { s with messenger := { s.messenger with needsPublishing := b } }

/-- The scene with a note on an unfinished rotation. -/
def setPendingRotation (s : Scene) (id : Option UInt32) : Scene :=
  { s with messenger := { s.messenger with pendingRotation := id } }

/-- The scene with a changed directory. -/
def setDirectory (s : Scene) (directory : Directory) : Scene := { s with directory }

end Scene

namespace Action

/-- An action that changes nothing and may fail. -/
def ofExcept {α : Type} : Except Error α → Action α
  | .ok a => pure a
  | .error err => throw err

/-- An action that draws. -/
def draw {α : Type} (x : Draw α) : Action α := fun s =>
  match x s.entropy with
  | .ok a entropy => .ok a { s with entropy }
  | .error err entropy => .error err { s with entropy }

/-- An action on the store and the randomness. -/
def onStore {α : Type} (x : EStateM Error (Store × Entropy) α) : Action α := fun s =>
  match x (s.messenger.store, s.entropy) with
  | .ok a (store, entropy) => .ok a { s.setStore store with entropy }
  | .error err (store, entropy) => .error err { s.setStore store with entropy }

/-- An action that changes the store and may draw. Nothing of the store is changed when it fails. -/
def changeStore {α : Type} (f : Store → Draw (α × Store)) : Action α := do
  let (a, store) ← draw (f (← get).messenger.store)
  modify fun s => s.setStore store
  return a

end Action

namespace Messenger

/-- A new device with a full pool of one-time pre-keys, nothing of it published yet. -/
def provision (address : DeviceAddress) (settings : Settings) (now : Time) : Draw Messenger := do
  let store ← Store.provision settings.maxOneTimePreKeys now
  return { address, settings, store, pendingRotation := none, needsPublishing := true }

/-- The trust decision on a device. -/
def trustState (m : Messenger) (device : DeviceAddress) : TrustState := m.store.trust.check device

/-- The fingerprint of the identity key that a device showed. -/
def deviceFingerprint? (m : Messenger) (device : DeviceAddress) : Option String :=
  m.store.trust.fingerprint? device

/-- The fingerprint of the own identity key. -/
def ownFingerprint [CipherSuite] (m : Messenger) : String := m.store.identity.publicKey.fingerprint

/-- Records a trust decision on a device. -/
def decideTrust (device : DeviceAddress) (state : TrustState) : Action Unit :=
  modify fun s =>
    s.setStore { s.messenger.store with trust := s.messenger.store.trust.decide device state }

/-- Records the identity key that a device shows. -/
def observeIdentity (device : DeviceAddress) (identity : PublicKey) : Action Unit := fun s =>
  match TrustTable.observe device identity s.messenger.store.trust with
  | .ok () trust => .ok () (s.setStore { s.messenger.store with trust })
  | .error err trust => .error err (s.setStore { s.messenger.store with trust })

/-- Forgets the sessions with a device, and answers whether there were any. The next message to it
starts a new one. -/
def resetSession (device : DeviceAddress) : Action Bool := do
  let s ← get
  set (s.setStore (s.messenger.store.deleteSession device))
  return s.messenger.store.containsSession device

end Messenger

end MultiDevice
