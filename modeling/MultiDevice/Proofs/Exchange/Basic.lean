import Mathlib.Algebra.Ring.Nat
import MultiDevice.Proofs.Messenger.Tended
import MultiDevice.Proofs.Ratchet.Conversation

/-!
# Two devices at work

Two devices share a directory, a clock and a source of randomness. Each encrypts messages and tends
its keys in any order. Envelopes arrive in any order, late or never, and each is read at most once.

## Main definitions

* `Exchange`: two devices, what they share, what was sent, and what was read
* `Exchange.Event`, `Exchange.run`: what happens, one thing after another
* `Exchange.Readable`: envelopes that are not too far ahead, and whose pre-key was not dropped
* `Exchange.New`, `Exchange.Fits`: exchanges to start from, and those that can be stored
-/

namespace MultiDevice

/-- An envelope that was sent. -/
structure Sent where
  /-- What was encrypted. -/
  plaintext : Bytes
  /-- The envelope. -/
  envelope : Envelope
  /-- The ephemeral key that the current session of the sender was agreed with, if it has one. -/
  baseKey : Option PublicKey
  deriving DecidableEq

/-- Two devices, what they share, the envelopes sent, and those read. -/
structure Exchange where
  /-- Each of the devices. -/
  messenger : Party → Messenger
  /-- The directory. -/
  directory : Directory
  /-- What the clock shows. -/
  now : Time
  /-- Where both draw from. -/
  entropy : Entropy
  /-- What each device sent. -/
  sent : Party → List Sent
  /-- What each device read. -/
  received : Party → List Envelope

namespace Exchange

/-- What can happen. -/
inductive Event where
  /-- A device encrypts a message for accounts. -/
  | encrypt (who : Party) (recipients : List Account) (plaintext : Bytes) (allowed : DeviceSet)
  /-- An envelope arrives. -/
  | deliver (who : Party) (envelope : Envelope)
  /-- A device tends its keys. -/
  | tend (who : Party) (task : Task)
  /-- Time passes. -/
  | wait (now : Time)

/-- Two devices before anything was sent. -/
def start (first second : Messenger) (directory : Directory) (now : Time) (entropy : Entropy) :
    Exchange where
  messenger
    | .first => first
    | .second => second
  directory
  now
  entropy
  sent _ := []
  received _ := []

/-- The store of a device. -/
def store (c : Exchange) (who : Party) : Store := (c.messenger who).store

/-- The address of a device. -/
def address (c : Exchange) (who : Party) : DeviceAddress := (c.messenger who).address

/-- What a device acts on. -/
def scene (c : Exchange) (who : Party) : Scene :=
  { messenger := c.messenger who, directory := c.directory, now := c.now, entropy := c.entropy }

/-- The exchange after a device acted. -/
def after (c : Exchange) (who : Party) (s : Scene) : Exchange :=
  { c with
    messenger := Function.update c.messenger who s.messenger
    directory := s.directory
    now := s.now
    entropy := s.entropy }

/-- The sessions of a device with the other one, the current one first. -/
def sessions (c : Exchange) (who : Party) : List Session :=
  match (c.store who).loadSession (c.address who.peer) with
  | .ok (some record) => record.sessions
  | _ => []

/-- The exchange with one more entry of what was sent. -/
def log (c : Exchange) (who : Party) (x : Sent) : Exchange :=
  { c with sent := Function.update c.sent who (x :: c.sent who) }

/-- The exchange with one more envelope sent. -/
def push (c : Exchange) (who : Party) (plaintext : Bytes) (envelope : Envelope) : Exchange :=
  c.log who { plaintext, envelope, baseKey := (c.sessions who).head?.map (·.baseKey) }

/-- The exchange with one more envelope read. -/
def pull (c : Exchange) (who : Party) (envelope : Envelope) : Exchange :=
  { c with received := Function.update c.received who (envelope :: c.received who) }

/-- An envelope that the other device sent and that was not read. -/
def InFlight (c : Exchange) (who : Party) (envelope : Envelope) : Prop :=
  envelope ∈ (c.sent who.peer).map (·.envelope) ∧ envelope ∉ c.received who

instance (c : Exchange) (who : Party) (envelope : Envelope) : Decidable (c.InFlight who envelope) :=
  inferInstanceAs (Decidable (_ ∧ _))

/-- The stored sessions have lengths of 64 bits. -/
def Fits (c : Exchange) : Prop :=
  ∀ (who : Party) (device : DeviceAddress) (bytes : Bytes),
    (c.store who).sessions[device]? = some bytes → bytes.length < UInt64.size

/-- How many signed pre-keys a device may make during some events. -/
def makes (who : Party) (events : List Event) : Nat :=
  (events.map fun
    | .tend w task => if w = who then task.makes else 0
    | _ => 0).sum

section Run

variable [CipherSuite]

/-- The exchange after one event. An envelope that cannot be read stays in flight. -/
def step (c : Exchange) : Event → Exchange
  | .encrypt who recipients plaintext allowed =>
    match Messenger.encryptFor recipients plaintext allowed (c.scene who) with
    | .ok encryption s => (c.after who s).push who plaintext encryption.envelope
    | .error _ s => c.after who s
  | .deliver who envelope =>
    if c.InFlight who envelope then
      match Messenger.decrypt (c.address who.peer) envelope (c.scene who) with
      | (.decrypted _, s) => (c.after who s).pull who envelope
      | (_, s) => c.after who s
    else c
  | .tend who task => c.after who (task.request.perform (c.scene who))
  | .wait now => { c with now }

/-- The exchange after several events. -/
def run (c : Exchange) (events : List Event) : Exchange := events.foldl step c

/-- An envelope that is not too far ahead for the session that it belongs to. If the device does not
have that session yet, the signed pre-key that the envelope names must not have been dropped. -/
def Readable (c : Exchange) (who : Party) (x : Sent) : Prop :=
  ∀ transport, x.envelope.keyFor (c.address who) = some transport →
    match (c.sessions who).find? (SessionRecord.agreedWith x.baseKey) with
    | some session => session.ratchet.WithinReach transport.message
    | none =>
      transport.message.header.number.toNat ≤ (c.messenger who).settings.maxSkip.toNat ∧
        ∀ header, transport.preKey = some header →
          ((c.store who).signedPreKeys.get? header.signedPreKeyId).isSome

/-- Two devices of different addresses and for the same purpose that were just set up, one after the
other, with pools small enough for their keys to be numbered. Nothing was published or sent. -/
structure New (e₀ : Entropy) (c : Exchange) : Prop where
  provisioned : ∃ first second settings settings' now now' e,
    Messenger.provision (c.address .first) settings now e₀ = .ok first e ∧
    Messenger.provision (c.address .second) settings' now' e = .ok second c.entropy ∧
    c = start first second c.directory c.now c.entropy
  address : c.address .first ≠ c.address .second
  info : (c.messenger .first).settings.info = (c.messenger .second).settings.info
  pool : ∀ who, (c.messenger who).settings.maxOneTimePreKeys < UInt32.size
  bundles : c.directory.bundles = ∅

end Run

/-! ## What an action of one device changes -/

@[simp] theorem after_messenger_self (c : Exchange) (who : Party) (s : Scene) :
    (c.after who s).messenger who = s.messenger := Function.update_self ..

@[simp] theorem after_messenger_peer (c : Exchange) (who : Party) (s : Scene) :
    (c.after who s).messenger who.peer = c.messenger who.peer :=
  Function.update_of_ne (Party.peer_ne who) ..

@[simp] theorem scene_after (c : Exchange) (who : Party) (s : Scene) :
    (c.after who s).scene who = s := by
  rw [scene, after_messenger_self]
  rfl

@[simp] theorem after_after (c : Exchange) (who : Party) (s t : Scene) :
    (c.after who s).after who t = c.after who t := by
  simp only [after, Function.update_idem]

@[simp] theorem scene_pull (c : Exchange) (who : Party) (envelope : Envelope) (w : Party) :
    (c.pull who envelope).scene w = c.scene w := rfl

@[simp] theorem pull_after_after (c : Exchange) (who : Party) (envelope : Envelope) (s t : Scene) :
    ((c.after who s).pull who envelope).after who t = (c.after who t).pull who envelope := by
  simp only [after, pull, Function.update_idem]

@[simp] theorem after_store_self (c : Exchange) (w : Party) (s : Scene) :
    (c.after w s).store w = s.messenger.store :=
  congrArg Messenger.store (after_messenger_self c w s)

@[simp] theorem after_store_peer (c : Exchange) (w : Party) (s : Scene) :
    (c.after w s).store w.peer = c.store w.peer :=
  congrArg Messenger.store (after_messenger_peer c w s)

@[simp] theorem after_address_self (c : Exchange) (w : Party) (s : Scene) :
    (c.after w s).address w = s.messenger.address :=
  congrArg Messenger.address (after_messenger_self c w s)

@[simp] theorem after_address_peer (c : Exchange) (w : Party) (s : Scene) :
    (c.after w s).address w.peer = c.address w.peer :=
  congrArg Messenger.address (after_messenger_peer c w s)

end Exchange

end MultiDevice
