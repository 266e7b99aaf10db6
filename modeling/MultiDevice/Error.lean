import MultiDevice.Address
import MultiDevice.Time
import MultiDevice.Primitive.Ed25519

/-!
# What can go wrong

Every failure of the library is one of these causes. A cause belongs to an area unless it stands
for itself, and its message names the area before the reason.

## Main definitions

* `Error`: the causes
* `Error.area?`, `Error.reason`, `Error.message`: the area of a cause, and its wording
* `Error.isRetryable`: whether the same call may succeed later
-/

namespace MultiDevice

/-- The areas that causes are grouped in. -/
inductive Area where
  /-- Failed cryptographic operations. -/
  | cryptography
  /-- Violated rules of the protocol. -/
  | protocol
  /-- Sessions in an unfit state. -/
  | session
  /-- Identity keys. -/
  | identity
  /-- Signed and one-time pre-keys. -/
  | preKey
  /-- Stored forms of another version. -/
  | serialization
  /-- Looking up accounts and bundles. -/
  | resolution
  /-- Key material that cannot be decoded. -/
  | corruptedKey
  /-- Publishing bundles and device lists. -/
  | publishing
  /-- Storage. -/
  | store
  deriving DecidableEq, Repr

/-- How the messages of an area begin. -/
def Area.heading : Area → String
  | cryptography => "Cryptographic operation failed"
  | protocol => "Protocol Violation"
  | session => "Session state error"
  | identity => "Identity key error"
  | preKey => "Pre-key error"
  | serialization => "Serialization/deserialization failed"
  | resolution => "Device resolution failed"
  | corruptedKey => "Corrupted key material"
  | publishing => "Publishing failed"
  | store => "Store error"

/-- The causes of failure. -/
inductive Error where
  /-- A ratchet message does not open under its key. -/
  | messageNotAuthentic
  /-- A ratchet message was read before, or its key is gone. -/
  | duplicateMessage
  /-- A payload does not open under its content key. -/
  | payloadNotAuthentic
  /-- What a session carried is no content key. -/
  | contentKeyLength
  /-- A message is too far ahead of its chain. -/
  | tooManySkipped
  /-- A byte string is too short for a ratchet message. -/
  | messageFormat
  /-- An envelope names another sender than the one it came from. -/
  | senderMismatch (named arrivedAs : DeviceAddress)
  /-- Nothing can be sent before the first message arrives. -/
  | noSendingChain
  /-- Nothing can be read on the current ratchet key. -/
  | noReceivingChain
  /-- A chain has used up its message numbers. -/
  | chainExhausted
  /-- No state of a record fits the message. -/
  | noMatchingState
  /-- No signed pre-key with this number is kept. -/
  | unknownSignedPreKey (id : UInt32)
  /-- No one-time pre-key with this number is kept. -/
  | unknownOneTimePreKey (id : UInt32)
  /-- The signed pre-key in use was to be given an expiry. -/
  | currentCannotExpire
  /-- The end of a grace period is not representable. -/
  | graceOutOfRange
  /-- A device has published no bundle. -/
  | noBundle (device : DeviceAddress)
  /-- The signature of a bundle was refused. -/
  | signatureRefused (fault : SignatureFault)
  /-- No randomness was to be had. -/
  | noRandomness
  /-- A stored session has another version. -/
  | unsupportedVersion (version : UInt32)
  /-- The directory cannot look up an account. -/
  | lookupFailed (account : Account)
  /-- Looking up an account failed for another reason. -/
  | lookupFailedBecause (account : Account) (message : String)
  /-- Looking up accounts took longer than allowed. -/
  | lookupTimedOut (limit : Duration)
  /-- The directory cannot hand out a bundle. -/
  | bundleFetchFailed (device : DeviceAddress)
  /-- The directory knows no such room. -/
  | unknownRoom (room : String)
  /-- Devices without a trust decision stand in the way. -/
  | undecidedTrust (rejected : DeviceSet)
  /-- There is neither a session with a device nor the means to start one. -/
  | noSession (device : DeviceAddress)
  /-- A stored form does not follow the wire format. -/
  | undecodable
  /-- A stored part has the wrong length. -/
  | wrongLength (part : String)
  /-- A stored record lacks its current state. -/
  | noCurrentState
  /-- A signing key is no point of its curve. -/
  | signingKeyNotAPoint
  /-- The signed pre-key in use is not kept. -/
  | currentSignedPreKeyMissing
  /-- A device showed another identity key than the one on record. -/
  | identityChanged (device : DeviceAddress)
  /-- The directory refused a bundle. -/
  | bundleRejected (device : DeviceAddress)
  /-- The directory refused a device list. -/
  | deviceListRejected (account : Account)
  /-- A component outside the library reported a failure. -/
  | reported (area : Area) (reason : String)
  deriving DecidableEq

namespace Error

/-- The area of a cause, for causes that have one. -/
def area? : Error → Option Area
  | messageNotAuthentic | duplicateMessage | payloadNotAuthentic | contentKeyLength =>
    some .cryptography
  | tooManySkipped | messageFormat | senderMismatch .. => some .protocol
  | noSendingChain | noReceivingChain | chainExhausted | noMatchingState => some .session
  | unknownSignedPreKey _ | unknownOneTimePreKey _ | currentCannotExpire | graceOutOfRange
  | noBundle _ | signatureRefused _ => some .preKey
  | unsupportedVersion _ => some .serialization
  | lookupFailed _ | lookupFailedBecause .. | lookupTimedOut _ | bundleFetchFailed _
  | unknownRoom _ => some .resolution
  | undecodable | wrongLength _ | noCurrentState | signingKeyNotAPoint
  | currentSignedPreKeyMissing => some .corruptedKey
  | bundleRejected _ | deviceListRejected _ => some .publishing
  | reported area _ => some area
  | noRandomness | undecidedTrust _ | noSession _ | identityChanged _ => none

/-- The wording of a cause, without its area. -/
def reason : Error → String
  | messageNotAuthentic => "Message decryption failed"
  | duplicateMessage => "Duplicate or expired message"
  | payloadNotAuthentic => "aead::Error"
  | contentKeyLength => "Unwrapped content key has the wrong length"
  | tooManySkipped => "Too many skipped messages"
  | messageFormat => "Invalid message format"
  | senderMismatch named arrivedAs =>
    "Envelope from " ++ named.text ++ " arrived as " ++ arrivedAs.text
  | noSendingChain => "No sending chain yet"
  | noReceivingChain => "No receiving chain"
  | chainExhausted => "Chain exhausted"
  | noMatchingState => "No session state matches the message"
  | unknownSignedPreKey id => "Unknown signed pre-key " ++ toString id.toNat
  | unknownOneTimePreKey id => "One-time pre-key " ++ toString id.toNat ++ " is unknown or used"
  | currentCannotExpire => "The current signed pre-key cannot expire"
  | graceOutOfRange => "Grace period out of range"
  | noBundle device => "No bundle published for " ++ device.text
  | signatureRefused .scalarOutOfRange =>
    "signature error: Cannot use scalar with high-bit set"
  | signatureRefused .equationFails =>
    "signature error: Verification equation was not satisfied"
  | noRandomness => "Random number generation failed"
  | unsupportedVersion version => "Unsupported session version: " ++ toString version.toNat
  | lookupFailed account => "Lookup of " ++ account ++ " failed"
  | lookupFailedBecause account message => "Lookup of " ++ account ++ " failed: " ++ message
  | lookupTimedOut limit => "Device lookup timed out after " ++ limit.text
  | bundleFetchFailed device => "Bundle fetch for " ++ device.text ++ " failed"
  | unknownRoom room => "Unknown room " ++ room
  | undecidedTrust rejected => "Undecided trust for " ++ toString rejected.size ++ " device(s)"
  | noSession device => "No session with " ++ device.text
  | undecodable => "failed to decode Protobuf message"
  | wrongLength part => "Invalid " ++ part ++ " length"
  | noCurrentState => "Session record has no current state"
  | signingKeyNotAPoint => "signature error: Cannot decompress Edwards point"
  | currentSignedPreKeyMissing => "Current signed pre-key is missing"
  | identityChanged device => "Identity key of " ++ device.text ++ " changed"
  | bundleRejected device => "Bundle of " ++ device.text ++ " rejected"
  | deviceListRejected account => "Device list of " ++ account ++ " rejected"
  | reported _ reason => reason

/-- The full wording of a cause. -/
def message (e : Error) : String :=
  match e.area? with
  | some area => area.heading ++ ": " ++ e.reason
  | none => e.reason

/-- Whether the same call may succeed later: failures to look up and to publish pass. -/
def isRetryable (e : Error) : Bool :=
  e.area? = some .resolution || e.area? = some .publishing

end Error

end MultiDevice
