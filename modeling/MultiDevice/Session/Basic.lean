import MultiDevice.Bytes.Text
import MultiDevice.Ratchet.Basic

/-!
# Sessions

A session is a ratchet with one remote device, together with the identity of that device and the
ephemeral key that the session was agreed with. Until the remote device answers, an initiator sends
along what that device needs to build its half.

## Main definitions

* `PreKeyHeader`: what the responder needs to build its half of a session
* `Session`: sessions, with `Session.encrypt` and `Session.decrypt`
* `Session.id`: a name that both ends compute alike
-/

namespace MultiDevice

/-- What a responder needs to build its half of a session. -/
structure PreKeyHeader where
  /-- The identity of the initiator. -/
  identity : PublicKey
  /-- The responder's signed pre-key that took part in the agreement. -/
  signedPreKeyId : UInt32
  /-- The responder's one-time pre-key that took part, if one did. -/
  oneTimePreKeyId : Option UInt32
  /-- The initiator's ephemeral key. -/
  baseKey : PublicKey
  deriving DecidableEq, Repr

/-- A session with one remote device. -/
structure Session where
  /-- The ratchet that encrypts and decrypts. -/
  ratchet : Ratchet
  /-- The identity of the remote device that the session was agreed with. -/
  remoteIdentity : PublicKey
  /-- The ephemeral key that the session was agreed with. -/
  baseKey : PublicKey
  /-- What is sent along until the remote device answers. -/
  pending : Option PreKeyHeader
  deriving DecidableEq

namespace Session

/-- The session from the remote device's answer on: nothing is sent along any more. -/
def establish (s : Session) : Session := { s with pending := none }

/-- What remains after the secrets were erased. -/
def wipe (s : Session) : Session := { s with ratchet := s.ratchet.wipe, pending := none }

variable [CipherSuite]

/-- The name of the session, which both ends compute alike: a digest of both identities, initiator
first, and the ephemeral key. -/
def id (s : Session) : String :=
  Bytes.base64
    (CipherSuite.digest (s.ratchet.associatedData.toList ++ s.baseKey.bytes.toList)).toList

/-- The next message. -/
def encrypt (plaintext : Bytes) : EStateM Error Session RatchetMessage := fun s =>
  match Ratchet.encrypt plaintext s.ratchet with
  | .ok message ratchet => .ok message { s with ratchet }
  | .error err ratchet => .error err { s with ratchet }

/-- The plaintext of a message and the session after it, which is established. -/
def decrypt (s : Session) (message : RatchetMessage) : Draw (Bytes × Session) := do
  let (plaintext, ratchet) ← s.ratchet.decrypt message
  return (plaintext, { s with ratchet }.establish)

end Session

end MultiDevice
