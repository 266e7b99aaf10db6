import MultiDevice.Messenger.Decrypt
import MultiDevice.Messenger.Encrypt
import MultiDevice.Proofs.CipherSuite
import MultiDevice.Proofs.Messenger.Upkeep

/-!
# Runs of a messenger

A run is a sequence of requests to one messenger, between which the world around it may change in
any way: others publish, time passes, randomness is used. Every request ends in a scene, whether it
succeeds or fails.

## Main definitions

* `Request`: what is asked of a messenger, and what happens around it
* `Request.perform`: the scene after a request
* `Scene.run`: the scene after a sequence of requests
* `Provisioned`: scenes of a device that was just set up
* `Scene.joining?`, `Scene.newcomer?`: such scenes that can be computed

## Main results

* `Scene.run_induction`: what every request keeps, every run keeps
-/

namespace MultiDevice

/-- What is asked of a messenger, and what happens around it. -/
inductive Request where
  /-- Encrypts a message for accounts, with a list of undecided devices allowed for this once. -/
  | encryptFor (recipients : List Account) (plaintext : Bytes) (allowed : DeviceSet)
  /-- Reads an envelope that came from a device. -/
  | decrypt (sender : DeviceAddress) (envelope : Envelope)
  /-- Records a trust decision on a device. -/
  | decideTrust (device : DeviceAddress) (state : TrustState)
  /-- Forgets the sessions with a device. -/
  | resetSession (device : DeviceAddress)
  /-- Publishes the bundle. -/
  | publishBundle
  /-- Publishes the bundle if it has to be. -/
  | publishIfNeeded
  /-- Publishes a device list without the other devices. -/
  | purgeDevices
  /-- Rotates the signed pre-key. -/
  | rotate
  /-- Rotates the signed pre-key if it is old enough. -/
  | rotateIfDue
  /-- Drops the signed pre-keys whose time has come. -/
  | prune
  /-- Starts afresh with a new identity. -/
  | regenerate
  /-- The directory, the clock and the randomness change. -/
  | surroundings (directory : Directory) (now : Time) (entropy : Entropy)

section Run

variable [CipherSuite]

/-- The scene after a request, whether it succeeds or fails. -/
def Request.perform : Request → Scene → Scene
  | .encryptFor recipients plaintext allowed, s =>
    endState (Messenger.encryptFor recipients plaintext allowed) s
  | .decrypt sender envelope, s => (Messenger.decrypt sender envelope s).2
  | .decideTrust device state, s => endState (Messenger.decideTrust device state) s
  | .resetSession device, s => endState (Messenger.resetSession device) s
  | .publishBundle, s => endState Messenger.publishBundle s
  | .publishIfNeeded, s => endState Messenger.publishIfNeeded s
  | .purgeDevices, s => endState Messenger.purgeDevices s
  | .rotate, s => endState Messenger.rotate s
  | .rotateIfDue, s => endState Messenger.rotateIfDue s
  | .prune, s => endState Messenger.prune s
  | .regenerate, s => endState Messenger.regenerate s
  | .surroundings directory now entropy, s => { s with directory, now, entropy }

/-- The scene after a sequence of requests. -/
def Scene.run (requests : List Request) (s : Scene) : Scene :=
  requests.foldl (fun s request => request.perform s) s

@[simp] theorem Scene.run_nil (s : Scene) : s.run [] = s := rfl

@[simp] theorem Scene.run_cons (request : Request) (requests : List Request) (s : Scene) :
    s.run (request :: requests) = (request.perform s).run requests := rfl

theorem Scene.run_append (front back : List Request) (s : Scene) :
    s.run (front ++ back) = (s.run front).run back := List.foldl_append

/-- What every request keeps, every run keeps. -/
theorem Scene.run_induction {p : Scene → Prop}
    (step : ∀ (request : Request) s, p s → p (request.perform s)) {s : Scene} (hs : p s)
    (requests : List Request) : p (s.run requests) := by
  induction requests generalizing s with
  | nil => exact hs
  | cons request requests ih => exact ih (step request s hs)

end Run

/-- The scene is that of a device that was just set up. -/
def Provisioned (s : Scene) : Prop :=
  ∃ address settings now e e', Messenger.provision address settings now e = .ok s.messenger e'

/-- A messenger is set up over a store that was set up. -/
theorem Messenger.provision_eq_ok_iff {address : DeviceAddress} {settings : Settings} {now : Time}
    {e e' : Entropy} {m : Messenger} :
    Messenger.provision address settings now e = .ok m e' ↔ ∃ store,
      Store.provision settings.maxOneTimePreKeys now e = .ok store e' ∧
      m = { address, settings, store, pendingRotation := none, needsPublishing := true } := by
  constructor
  · intro h
    obtain ⟨store, e₁, hs, h⟩ := bind_eq_ok_iff.mp h
    cases h
    exact ⟨store, hs, rfl⟩
  · rintro ⟨store, hs, rfl⟩
    exact bind_of_ok hs

/-- A device that was just set up has not begun a rotation and has to publish. -/
theorem Provisioned.exists_provision {s : Scene} (h : Provisioned s) :
    s.messenger.pendingRotation = none ∧ s.messenger.needsPublishing = true ∧ ∃ now e e',
      Store.provision s.messenger.settings.maxOneTimePreKeys now e =
        .ok s.messenger.store e' := by
  obtain ⟨address, settings, now, e, e', h⟩ := h
  obtain ⟨store, hs, hm⟩ := Messenger.provision_eq_ok_iff.mp h
  rw [hm]
  exact ⟨rfl, rfl, now, e, e', hs⟩

/-- A device that was just set up knows of no other device. -/
theorem Provisioned.store {s : Scene} (h : Provisioned s) :
    s.messenger.store.trust = ∅ ∧ s.messenger.store.sessions = ∅ := by
  obtain ⟨-, -, now, e, e', hs⟩ := h.exists_provision
  obtain ⟨pool, e₁, identity, e₂, ring, -, -, -, hstore⟩ := Store.provision_eq_ok_iff.mp hs
  rw [hstore]
  exact ⟨rfl, rfl⟩

/-- The signed pre-keys of a device that was just set up are those that a ring starts with. -/
theorem Provisioned.exists_startingAt {s : Scene} (h : Provisioned s) :
    ∃ now e e',
      SignedPreKeyRing.startingAt 1 now e = .ok s.messenger.store.signedPreKeys e' := by
  obtain ⟨-, -, now, e, e', hs⟩ := h.exists_provision
  obtain ⟨pool, e₁, identity, e₂, ring, -, -, hring, hstore⟩ := Store.provision_eq_ok_iff.mp hs
  rw [hstore]
  exact ⟨now, e₂, e', hring⟩

/-- A device that was just set up, in a world that was there before. -/
def Scene.joining? (address : DeviceAddress) (settings : Settings) (directory : Directory)
    (entropy : Entropy) : Option Scene :=
  match Messenger.provision address settings .epoch entropy with
  | .ok messenger entropy => some { messenger, directory, now := .epoch, entropy }
  | .error _ _ => none

theorem provisioned_of_joining {address : DeviceAddress} {settings : Settings}
    {directory : Directory} {entropy : Entropy} {s : Scene}
    (h : Scene.joining? address settings directory entropy = some s) : Provisioned s := by
  unfold Scene.joining? at h
  split at h
  · next hm =>
    cases h
    exact ⟨_, _, _, _, _, hm⟩
  · cases h

/-- A device without one-time pre-keys that was just set up, alone in the world. -/
def Scene.newcomer? (address : DeviceAddress) : Option Scene :=
  let settings := { Settings.standard with minOneTimePreKeys := 0, maxOneTimePreKeys := 0 }
  match Messenger.provision address settings .epoch .counting with
  | .ok messenger entropy => some { messenger, directory := .empty, now := .epoch, entropy }
  | .error _ _ => none

theorem provisioned_of_newcomer {address : DeviceAddress} {s : Scene}
    (h : Scene.newcomer? address = some s) : Provisioned s := by
  simp only [Scene.newcomer?] at h
  split at h
  · next hm =>
    cases h
    exact ⟨_, _, _, _, _, hm⟩
  · cases h

namespace Messenger

variable [CipherSuite]

/-- The outcome of reading tells nothing about the scene after it. -/
theorem decrypt_snd (sender : DeviceAddress) (envelope : Envelope) (s : Scene) :
    (decrypt sender envelope s).2 = endState (read sender envelope) s := by
  rw [endState, decrypt]
  split
  · next h => rw [h]
  · next h => rw [h]
  · next h => rw [h]
  · next h => rw [h]

/-! ## Two stages of an encryption -/

/-- What an encryption needs before it turns to the devices: which of them it may go to, a content
key, and the message encrypted under it. -/
def prepare (recipients : List Account) (plaintext : Bytes) (allowed : DeviceSet) :
    Action (TrustVerdict × ContentKey × Payload) := do
  let s ← get
  let devices ← Action.ofExcept (resolveOthers s recipients)
  let verdict ← Action.ofExcept (s.messenger.store.trust.require devices allowed)
  let key ← Action.draw ContentKey.generate
  let payload ← Action.draw (key.encrypt plaintext s.messenger.address)
  return (verdict, key, payload)

/-- An encryption prepares, then wraps the content key for each device. -/
theorem encryptFor_eq (recipients : List Account) (plaintext : Bytes) (allowed : DeviceSet) :
    encryptFor recipients plaintext allowed = (do
      let s ← get
      let (verdict, key, payload) ← prepare recipients plaintext allowed
      let (keys, failures) ← wrapAll key verdict.accepted.toList
      return {
        envelope :=
          { sender := s.messenger.address, keys, payload, hints := s.messenger.settings.hints }
        failures
        untrusted := verdict.untrusted }) := by
  funext s
  simp only [encryptFor, prepare, bind_assoc, pure_bind]
  rfl

/-- Preparing an encryption uses randomness and changes nothing else. -/
theorem prepare_leaves {γ : Type} {view : Scene → γ}
    (hv : ∀ s e, view { s with entropy := e } = view s) (recipients : List Account)
    (plaintext : Bytes) (allowed : DeviceSet) :
    Leaves view (prepare recipients plaintext allowed) := by
  refine Leaves.get.bind fun s => (Leaves.ofExcept _).bind fun devices => ?_
  refine (Leaves.ofExcept _).bind fun verdict => (Leaves.draw _ hv).bind fun key => ?_
  exact (Leaves.draw _ hv).bind fun payload => Leaves.pure _

end Messenger

end MultiDevice
