import MultiDevice.Agreement
import MultiDevice.Envelope.Basic
import MultiDevice.Store

/-!
# Wrapping content keys

A content key is sent to a device as a message of the session with it. The first message to a device
starts a session from its bundle, the first message from a device builds the other half.

## Main definitions

* `KeyWrap.Settings`: the purpose of the agreement and the limit on overtaken messages
* `KeyWrap.wrap`: a content key on its way to a device
* `KeyWrap.unwrap`: the content key that arrived from a device
-/

namespace MultiDevice.KeyWrap

/-- What the sessions of a device have in common. -/
structure Settings where
  /-- The purpose that keys are agreed for; other purposes give other keys. -/
  info : Bytes
  /-- How far ahead of its chain a message may be. -/
  maxSkip : UInt32
  deriving DecidableEq, Repr

/-- A content key that arrived. -/
structure Unwrapped where
  /-- The content key. -/
  key : ContentKey
  /-- The identity of the sending device in its session. -/
  identity : PublicKey
  /-- Whether the session was built for this message. -/
  newSession : Bool
  /-- The one-time pre-key that the new session used up. -/
  consumed : Option UInt32
  deriving DecidableEq, Repr

variable [CipherSuite]

/-- A new session with the owner of a bundle. -/
def outbound (c : Settings) (s : Store) (bundle : PreKeyBundle) : Draw Session := do
  let agreed ← Agreement.initiate c.info s.identity bundle
  let ratchet ← Ratchet.initiate agreed.secret bundle.signedPreKey.key c.maxSkip
    (Agreement.associatedData s.identity.publicKey bundle.identity)
  return {
    ratchet
    remoteIdentity := bundle.identity
    baseKey := agreed.ephemeral
    pending := some {
      identity := s.identity.publicKey
      signedPreKeyId := bundle.signedPreKey.id
      oneTimePreKeyId := bundle.oneTimePreKey.map (·.id)
      baseKey := agreed.ephemeral } }

/-- The one-time pre-key that a header names, if it names one. -/
def namedOneTimePreKey (s : Store) : Option UInt32 → Except Error (Option OneTimePreKey)
  | none => .ok none
  | some id =>
    match s.oneTimePreKeys.get? id with
    | some key => .ok (some key)
    | none => .error (.unknownOneTimePreKey id)

/-- The other half of the session that a header belongs to. -/
def inbound (c : Settings) (s : Store) (header : PreKeyHeader) : Except Error Session :=
  match s.signedPreKeys.get? header.signedPreKeyId with
  | none => .error (.unknownSignedPreKey header.signedPreKeyId)
  | some signed => do
    let oneTime ← namedOneTimePreKey s header.oneTimePreKeyId
    let secret :=
      Agreement.respond c.info s.identity signed oneTime header.identity header.baseKey
    return {
      ratchet := Ratchet.respond secret signed.secret c.maxSkip
        (Agreement.associatedData header.identity s.identity.publicKey)
      remoteIdentity := header.identity
      baseKey := header.baseKey
      pending := none }

/-- The sessions with a device, started from its bundle if there are none. -/
def recordFor (c : Settings) (s : Store) (device : DeviceAddress)
    (bundle : Option PreKeyBundle) : Draw SessionRecord := do
  match ← Draw.ofExcept (s.loadSession device) with
  | some record => return record
  | none =>
    match bundle with
    | some bundle => return .ofSession (← outbound c s bundle)
    | none => throw (.noSession device)

/-- Bytes on their way to a device, as the next message of the current session of a record. The
record is kept as it is after the message. -/
def send (s : Store) (device : DeviceAddress) (record : SessionRecord) (plaintext : Bytes) :
    Except Error (KeyTransport × Store) :=
  match record.current.encrypt plaintext with
  | .error err _ => .error err
  | .ok message session =>
    .ok ({ preKey := session.pending, message },
      s.saveSession device { record with current := session })

/-- A content key on its way to a device, in the current session with it. -/
def wrap (c : Settings) (s : Store) (device : DeviceAddress) (bundle : Option PreKeyBundle)
    (key : ContentKey) : Draw (KeyTransport × Store) := do
  let record ← recordFor c s device bundle
  Draw.ofExcept (send s device record key.bytes.toList)

/-- A message read in a session with its sender. -/
structure Reading where
  /-- The plaintext. -/
  plaintext : Bytes
  /-- The identity of the sender in that session. -/
  identity : PublicKey
  /-- The sessions with the sender after the message. -/
  record : SessionRecord
  /-- Whether the session was built for this message. -/
  newSession : Bool

/-- Reads a message with the sessions there are. -/
def readKnown (record : SessionRecord) (message : RatchetMessage)
    (baseKey : Option PublicKey) : Draw Reading := do
  let (plaintext, identity, record) ← record.decrypt message baseKey
  return { plaintext, identity, record, newSession := false }

/-- Reads a message with a session built for it, which becomes the current one. -/
def readNew (c : Settings) (s : Store) (existing : Option SessionRecord) (header : PreKeyHeader)
    (message : RatchetMessage) : Draw Reading := do
  let session ← Draw.ofExcept (inbound c s header)
  let (plaintext, session) ← session.decrypt message
  let record := match existing with
    | some record => record.promote session
    | none => .ofSession session
  return { plaintext, identity := session.remoteIdentity, record, newSession := true }

/-- Reads the message of a transport: with the sessions agreed with the ephemeral key that its
header names, if there are such; with a session built for the header otherwise; and with any session
if there is no header. -/
def readTransport (c : Settings) (s : Store) (device : DeviceAddress)
    (existing : Option SessionRecord) (t : KeyTransport) : Draw Reading :=
  match existing, t.preKey with
  | some record, some header =>
    if record.hasBaseKey header.baseKey then readKnown record t.message (some header.baseKey)
    else readNew c s existing header t.message
  | none, some header => readNew c s none header t.message
  | some record, none => readKnown record t.message none
  | none, none => throw (.noSession device)

/-- The one-time pre-key that a reading used up: the one its header names, if the session is
new. -/
def Reading.consumed (r : Reading) (t : KeyTransport) : Option UInt32 :=
  if r.newSession then t.preKey.bind (·.oneTimePreKeyId) else none

/-- The content key that arrived from a device. The sessions with the device are kept as they are
after the message, and the one-time pre-key used up is removed. -/
def unwrap (c : Settings) (s : Store) (device : DeviceAddress) (t : KeyTransport) :
    Draw (Unwrapped × Store) := do
  let existing ← Draw.ofExcept (s.loadSession device)
  let reading ← readTransport c s device existing t
  let key ← Draw.ofExcept (ContentKey.ofBytes reading.plaintext)
  let consumed := reading.consumed t
  let s := s.saveSession device reading.record
  let s := match consumed with
    | some id => (s.removeOneTimePreKey id).2
    | none => s
  return ({ key, identity := reading.identity, newSession := reading.newSession, consumed }, s)

end MultiDevice.KeyWrap
