import MultiDevice.Envelope.ContentKey
import MultiDevice.Session.Basic

/-!
# Envelopes

An envelope carries one payload and, for every recipient device, the content key as a message of
the session with that device.

## Main definitions

* `KeyTransport`: a content key on its way to one device
* `Envelope`: a payload with the keys for its recipients
* `Hints`: what is said in the clear about an envelope
-/

namespace MultiDevice

/-- A content key on its way to one device. -/
structure KeyTransport where
  /-- What the device needs to build its half of the session, until it has answered. -/
  preKey : Option PreKeyHeader
  /-- The content key as a message of the session. -/
  message : RatchetMessage
  deriving DecidableEq, Repr

/-- Whether a transport can start a session. -/
def KeyTransport.isPreKey (t : KeyTransport) : Bool := t.preKey.isSome

/-- The content key for one recipient. -/
structure RecipientKey where
  /-- The device that the key is for. -/
  recipient : DeviceAddress
  /-- The key. -/
  transport : KeyTransport
  deriving DecidableEq, Repr

/-- What is said in the clear about an envelope. -/
structure Hints where
  /-- The body shown by clients that cannot decrypt. -/
  fallback : Option String
  /-- Whether the server is asked to archive the envelope. -/
  storage : Bool
  /-- Whether the envelope is marked as encrypted. -/
  announce : Bool
  deriving DecidableEq, Repr

/-- The hints of an envelope unless others are chosen. -/
def Hints.standard : Hints :=
  { fallback :=
      some "This message is end-to-end encrypted and cannot be displayed by this client."
    storage := true
    announce := true }

/-- A payload with the keys for its recipients. -/
structure Envelope where
  /-- The device that sent it. -/
  sender : DeviceAddress
  /-- The content key for every recipient. -/
  keys : List RecipientKey
  /-- The body. -/
  payload : Payload
  /-- What is said in the clear. -/
  hints : Hints
  deriving DecidableEq, Repr

namespace Envelope

/-- The first key for a device. -/
def keyFor (e : Envelope) (device : DeviceAddress) : Option KeyTransport :=
  (e.keys.find? fun k => k.recipient = device).map (·.transport)

/-- The devices that the envelope carries a key for. -/
def recipients (e : Envelope) : List DeviceAddress := e.keys.map (·.recipient)

end Envelope

end MultiDevice
