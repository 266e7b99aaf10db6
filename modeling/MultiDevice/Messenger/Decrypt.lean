import MultiDevice.Messenger.Basic

/-!
# Decrypting envelopes

An envelope is read with the key that it carries for the own device. Archived envelopes are read one
after the other, and one that cannot be read does not keep the others from being read.

## Main definitions

* `ClearText`, `Decryption`: what came of an envelope
* `Messenger.decrypt`: reads an envelope
* `History`: envelopes still to be read, and a report on those that could not be
* `History.next`: the next message of a history
-/

namespace MultiDevice

/-- A message that was read, and where it came from. -/
structure ClearText where
  /-- The message. -/
  plaintext : Bytes
  /-- The device that sent it. -/
  sender : DeviceAddress
  /-- The trust decision on the sender. -/
  trust : TrustState
  /-- The fingerprint of the sender's identity key. -/
  fingerprint : String
  deriving DecidableEq, Repr

/-- What came of an envelope. -/
inductive Decryption where
  /-- It was read. -/
  | decrypted (message : ClearText)
  /-- It carries no key for this device, or nothing to start a session with. -/
  | notForMe (device : DeviceAddress)
  /-- It could not be read. -/
  | failed (error : Error)
  deriving DecidableEq

/-- What came of an envelope as a message or a cause of failure. -/
def Decryption.result : Decryption → Except Error ClearText
  | decrypted message => .ok message
  | notForMe device => .error (.noSession device)
  | failed error => .error error

namespace Messenger

/-- Records the identity key that a sender shows. That it changed is no reason not to read. -/
def noteIdentity (device : DeviceAddress) (identity : PublicKey) : Action Unit := fun s =>
  match observeIdentity device identity s with
  | .error (.identityChanged _) s => .ok () s
  | r => r

variable [CipherSuite]

/-- The content key that arrived from a device. -/
def unwrap (sender : DeviceAddress) (transport : KeyTransport) : Action KeyWrap.Unwrapped := do
  let c := (← get).messenger.settings
  Action.changeStore fun store => KeyWrap.unwrap c.keyWrap store sender transport

/-- The content key that arrived from a device. A one-time pre-key used up makes the published
bundle out of date. -/
def unwrapFrom (sender : DeviceAddress) (transport : KeyTransport) : Action KeyWrap.Unwrapped := do
  let unwrapped ← unwrap sender transport
  if unwrapped.consumed.isSome then modify fun s => s.setNeedsPublishing true
  return unwrapped

/-- Reads an envelope with the key that it carries for this device; no message if it carries
none. -/
def read (sender : DeviceAddress) (envelope : Envelope) : Action (Option ClearText) := do
  if envelope.sender = sender then
    match envelope.keyFor (← get).messenger.address with
    | none => return none
    | some transport =>
      let unwrapped ← unwrapFrom sender transport
      noteIdentity sender unwrapped.identity
      let plaintext ← Action.ofExcept (unwrapped.key.decrypt envelope.payload sender)
      return some {
        plaintext
        sender
        trust := (← get).messenger.trustState sender
        fingerprint := unwrapped.identity.fingerprint }
  else throw (.senderMismatch envelope.sender sender)

/-- Reads an envelope that came from a device. -/
def decrypt (sender : DeviceAddress) (envelope : Envelope) (s : Scene) : Decryption × Scene :=
  match read sender envelope s with
  | .ok (some message) s => (.decrypted message, s)
  | .ok none s => (.notForMe sender, s)
  | .error (.noSession device) s => (.notForMe device, s)
  | .error err s => (.failed err, s)

end Messenger

/-- An archived envelope and the device that it came from. -/
structure Archived where
  /-- The device. -/
  sender : DeviceAddress
  /-- The envelope. -/
  envelope : Envelope

/-- An archived envelope that could not be read. -/
structure HistoryFailure where
  /-- Its place among the archived envelopes. -/
  index : Nat
  /-- The device that it came from. -/
  sender : DeviceAddress
  /-- Why it could not be read. -/
  error : Error
  deriving DecidableEq

/-- The reading of archived envelopes in progress. -/
structure History where
  /-- The envelopes still to be read. -/
  entries : List Archived
  /-- The place of the next envelope. -/
  index : Nat
  /-- The envelopes that could not be read. -/
  failures : List HistoryFailure
  /-- How many envelopes were not for this device. -/
  notForMe : Nat

namespace History

/-- A history of which nothing has been read. -/
def ofEntries (entries : List Archived) : History :=
  { entries, index := 0, failures := [], notForMe := 0 }

/-- The history after an envelope that yielded no message. -/
def note (h : History) (sender : DeviceAddress) : Decryption → History
  | .decrypted _ => h
  | .notForMe _ => { h with notForMe := h.notForMe + 1 }
  | .failed error => { h with failures := h.failures ++ [{ index := h.index, sender, error }] }

variable [CipherSuite]

/-- Reads archived envelopes up to the first one that yields a message. -/
def nextFrom : List Archived → History → Scene → Option ClearText × History × Scene
  | [], h, s => (none, { h with entries := [] }, s)
  | entry :: rest, h, s =>
    match Messenger.decrypt entry.sender entry.envelope s with
    | (.decrypted message, s) => (some message, { h with entries := rest, index := h.index + 1 }, s)
    | (d, s) => nextFrom rest { h.note entry.sender d with index := h.index + 1 } s

/-- The next message of a history, if there is one left. -/
def next (h : History) (s : Scene) : Option ClearText × History × Scene := nextFrom h.entries h s

/-- At most `count` messages of a history. -/
def take : Nat → History → Scene → List ClearText × History × Scene
  | 0, h, s => ([], h, s)
  | count + 1, h, s =>
    match h.next s with
    | (none, h, s) => ([], h, s)
    | (some message, h, s) =>
      let (messages, h, s) := take count h s
      (message :: messages, h, s)

/-- All messages of a history: each takes at least one of its envelopes. -/
def all (h : History) (s : Scene) : List ClearText × History × Scene := take h.entries.length h s

end History

end MultiDevice
