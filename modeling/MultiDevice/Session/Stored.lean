import MultiDevice.Session.Record
import MultiDevice.Wire.Field

/-!
# Stored sessions

Sessions and records are stored as messages of numbered fields. Reading takes two steps: the bytes
must follow the wire format, and then every key must have its length.

## Main definitions

* `StoredSession`, `StoredRecord`: the messages, with their fields and back
* `Session.serialize`, `Session.deserialize`: sessions as bytes
* `SessionRecord.serialize`, `SessionRecord.deserialize`: records as bytes
-/

namespace MultiDevice

/-- The version of the stored forms. -/
def storedVersion : UInt32 := 1

/-! ## Messages and their fields -/

/-- A chain as a message. -/
structure StoredChain where
  /-- Field 1. -/
  key : Bytes
  /-- Field 2. -/
  index : UInt32
  deriving DecidableEq, Repr

/-- A message key that was put aside as a message. -/
structure StoredSkippedKey where
  /-- Field 1. -/
  ratchetKey : Bytes
  /-- Field 2. -/
  number : UInt32
  /-- Field 3. -/
  messageKey : Bytes
  deriving DecidableEq, Repr

/-- What is sent along with first messages, as a message. -/
structure StoredHeader where
  /-- Field 1. -/
  identity : Bytes
  /-- Field 2. -/
  signedPreKeyId : UInt32
  /-- Field 3, if present. -/
  oneTimePreKeyId : Option UInt32
  /-- Field 4. -/
  baseKey : Bytes
  deriving DecidableEq, Repr

/-- A session as a message. -/
structure StoredSession where
  /-- Field 1. -/
  version : UInt32
  /-- Field 2. -/
  associatedData : Bytes
  /-- Field 3. -/
  secret : Bytes
  /-- Field 4, if present. -/
  remote : Option Bytes
  /-- Field 5. -/
  rootKey : Bytes
  /-- Field 6, if present. -/
  sending : Option StoredChain
  /-- Field 7, if present. -/
  receiving : Option StoredChain
  /-- Field 8. -/
  previousLength : UInt32
  /-- Field 9, any number of times. -/
  skipped : List StoredSkippedKey
  /-- Field 10. -/
  maxSkip : UInt32
  /-- Field 11. -/
  remoteIdentity : Bytes
  /-- Field 12. -/
  baseKey : Bytes
  /-- Field 13, if present. -/
  pending : Option StoredHeader
  deriving DecidableEq, Repr

/-- A record as a message. -/
structure StoredRecord where
  /-- Field 1. -/
  version : UInt32
  /-- Field 2, if present. -/
  current : Option StoredSession
  /-- Field 3, any number of times. -/
  previous : List StoredSession
  deriving DecidableEq, Repr

open Wire

/-- The fields of a stored chain. -/
def StoredChain.fields (c : StoredChain) : List Field := blob 1 c.key ++ scalar 2 c.index

/-- The stored chain with the given fields. -/
def StoredChain.ofFields? (fs : List Field) : Option StoredChain := do
  return { key := ← blob? fs 1, index := ← scalar? fs 2 }

/-- The fields of a message key put aside. -/
def StoredSkippedKey.fields (k : StoredSkippedKey) : List Field :=
  blob 1 k.ratchetKey ++ scalar 2 k.number ++ blob 3 k.messageKey

/-- The message key put aside with the given fields. -/
def StoredSkippedKey.ofFields? (fs : List Field) : Option StoredSkippedKey := do
  return { ratchetKey := ← blob? fs 1, number := ← scalar? fs 2, messageKey := ← blob? fs 3 }

/-- The fields of a stored header. -/
def StoredHeader.fields (h : StoredHeader) : List Field :=
  blob 1 h.identity ++ scalar 2 h.signedPreKeyId ++ optionalScalar 3 h.oneTimePreKeyId ++
    blob 4 h.baseKey

/-- The stored header with the given fields. -/
def StoredHeader.ofFields? (fs : List Field) : Option StoredHeader := do
  return {
    identity := ← blob? fs 1
    signedPreKeyId := ← scalar? fs 2
    oneTimePreKeyId := ← optionalScalar? fs 3
    baseKey := ← blob? fs 4 }

/-- The fields of a stored session. -/
def StoredSession.fields (s : StoredSession) : List Field :=
  scalar 1 s.version ++ blob 2 s.associatedData ++ blob 3 s.secret ++ optionalBlob 4 s.remote ++
    blob 5 s.rootKey ++ optionalMessage 6 (s.sending.map StoredChain.fields) ++
    optionalMessage 7 (s.receiving.map StoredChain.fields) ++ scalar 8 s.previousLength ++
    s.skipped.map (fun k => message 9 k.fields) ++ scalar 10 s.maxSkip ++
    blob 11 s.remoteIdentity ++ blob 12 s.baseKey ++
    optionalMessage 13 (s.pending.map StoredHeader.fields)

/-- The message under a field number, read as `ofFields?` says. -/
def optionalPart? {α : Type} (ofFields? : List Field → Option α) (depth : Nat) (fs : List Field)
    (number : Nat) : Option (Option α) :=
  match message? depth fs number with
  | none => none
  | some none => some none
  | some (some inner) => (ofFields? inner).map some

/-- The messages under a field number, each read as `ofFields?` says. -/
def parts? {α : Type} (ofFields? : List Field → Option α) (depth : Nat) (fs : List Field)
    (number : Nat) : Option (List α) :=
  (messages? depth fs number).bind fun ms => ms.mapM ofFields?

/-- The stored session with the given fields. -/
def StoredSession.ofFields? (depth : Nat) (fs : List Field) : Option StoredSession := do
  return {
    version := ← scalar? fs 1
    associatedData := ← blob? fs 2
    secret := ← blob? fs 3
    remote := ← optionalBlob? fs 4
    rootKey := ← blob? fs 5
    sending := ← optionalPart? StoredChain.ofFields? depth fs 6
    receiving := ← optionalPart? StoredChain.ofFields? depth fs 7
    previousLength := ← scalar? fs 8
    skipped := ← parts? StoredSkippedKey.ofFields? depth fs 9
    maxSkip := ← scalar? fs 10
    remoteIdentity := ← blob? fs 11
    baseKey := ← blob? fs 12
    pending := ← optionalPart? StoredHeader.ofFields? depth fs 13 }

/-- The fields of a stored record. -/
def StoredRecord.fields (r : StoredRecord) : List Field :=
  scalar 1 r.version ++ optionalMessage 2 (r.current.map StoredSession.fields) ++
    r.previous.map (fun s => message 3 s.fields)

/-- The stored record with the given fields. -/
def StoredRecord.ofFields? (depth : Nat) (fs : List Field) : Option StoredRecord := do
  return {
    version := ← scalar? fs 1
    current := ← optionalPart? (StoredSession.ofFields? (depth - 1)) depth fs 2
    previous := ← parts? (StoredSession.ofFields? (depth - 1)) depth fs 3 }

/-! ## From sessions to messages and back -/

/-- A chain as a message. -/
def Chain.stored (c : Chain) : StoredChain := { key := c.key.toList, index := c.index }

/-- A header as a message. -/
def PreKeyHeader.stored (h : PreKeyHeader) : StoredHeader :=
  { identity := h.identity.bytes.toList
    signedPreKeyId := h.signedPreKeyId
    oneTimePreKeyId := h.oneTimePreKeyId
    baseKey := h.baseKey.bytes.toList }

/-- The message keys put aside as messages, in the order of their written forms. -/
def SkippedKeys.stored (ks : SkippedKeys) : List StoredSkippedKey :=
  (ks.toList.map fun (id, key) =>
    { ratchetKey := id.ratchetKey.toList, number := id.number, messageKey := key.toList }).mergeSort
      fun a b : StoredSkippedKey =>
        (compare (writeField (message 9 a.fields)) (writeField (message 9 b.fields))).isLE

/-- A session as a message. -/
def Session.stored (s : Session) : StoredSession :=
  { version := storedVersion
    associatedData := s.ratchet.associatedData.toList
    secret := s.ratchet.secret.toList
    remote := s.ratchet.remote.map fun key => key.bytes.toList
    rootKey := s.ratchet.rootKey.toList
    sending := s.ratchet.sending.map Chain.stored
    receiving := s.ratchet.receiving.map Chain.stored
    previousLength := s.ratchet.previousLength
    skipped := s.ratchet.skipped.stored
    maxSkip := s.ratchet.maxSkip
    remoteIdentity := s.remoteIdentity.bytes.toList
    baseKey := s.baseKey.bytes.toList
    pending := s.pending.map PreKeyHeader.stored }

/-- A record as a message. -/
def SessionRecord.stored (r : SessionRecord) : StoredRecord :=
  { version := storedVersion
    current := some r.current.stored
    previous := r.previous.map Session.stored }

/-- The block that a stored part is, named in the failure when it has another length. -/
def storedBlock (part : String) (n : Nat) (bs : Bytes) : Except Error (Block n) :=
  match Block.ofList? n bs with
  | some b => .ok b
  | none => .error (.wrongLength part)

/-- The public key that a stored part is. -/
def storedKey (part : String) (bs : Bytes) : Except Error PublicKey := do
  return ⟨← storedBlock part 32 bs⟩

/-- What an optional stored part is, if it is present. -/
def storedOption {α β : Type} (f : α → Except Error β) : Option α → Except Error (Option β)
  | none => .ok none
  | some a => (f a).map some

/-- Accepts only the present version. -/
def checkVersion (version : UInt32) : Except Error Unit :=
  if version = storedVersion then .ok () else .error (.unsupportedVersion version)

/-- The chain that a message is. -/
def StoredChain.chain (c : StoredChain) : Except Error Chain := do
  return { key := ← storedBlock "chain key" 32 c.key, index := c.index }

/-- The message keys that messages are, a later one in place of an earlier one of the same name. -/
def StoredSkippedKey.collect : List StoredSkippedKey → SkippedKeys → Except Error SkippedKeys
  | [], keys => .ok keys
  | k :: ks, keys => do
    let ratchetKey ← storedBlock "skipped ratchet key" 32 k.ratchetKey
    let messageKey ← storedBlock "skipped message key" 32 k.messageKey
    collect ks (keys.insert ⟨ratchetKey, k.number⟩ messageKey)

/-- The header that a message is. -/
def StoredHeader.header (h : StoredHeader) : Except Error PreKeyHeader := do
  return {
    identity := ← storedKey "pre-key header identity" h.identity
    signedPreKeyId := h.signedPreKeyId
    oneTimePreKeyId := h.oneTimePreKeyId
    baseKey := ← storedKey "pre-key header base key" h.baseKey }

/-- The session that a message is. -/
def StoredSession.session (s : StoredSession) : Except Error Session := do
  checkVersion s.version
  let associatedData ← storedBlock "associated data" 64 s.associatedData
  let remote ← storedOption (storedKey "remote ratchet key") s.remote
  let skipped ← StoredSkippedKey.collect s.skipped ∅
  let secret ← storedBlock "ratchet key pair" 32 s.secret
  let rootKey ← storedBlock "root key" 32 s.rootKey
  let sending ← storedOption StoredChain.chain s.sending
  let receiving ← storedOption StoredChain.chain s.receiving
  let pending ← storedOption StoredHeader.header s.pending
  let remoteIdentity ← storedKey "remote identity" s.remoteIdentity
  let baseKey ← storedKey "base key" s.baseKey
  return {
    ratchet := { associatedData, secret, remote, rootKey, sending, receiving
                 previousLength := s.previousLength, skipped, maxSkip := s.maxSkip }
    remoteIdentity, baseKey, pending }

/-- The record that a message is. -/
def StoredRecord.record (r : StoredRecord) : Except Error SessionRecord := do
  checkVersion r.version
  match r.current with
  | none => throw .noCurrentState
  | some current =>
    let current ← current.session
    let previous ← r.previous.mapM StoredSession.session
    return { current, previous }

/-! ## Bytes -/

/-- The written form of a session. -/
def Session.serialize (s : Session) : Bytes := Wire.write s.stored.fields

/-- The session with the given written form. -/
def Session.deserialize (bs : Bytes) : Except Error Session :=
  match (Wire.read depthLimit bs).bind (StoredSession.ofFields? depthLimit) with
  | some s => s.session
  | none => .error .undecodable

/-- The written form of a record. -/
def SessionRecord.serialize (r : SessionRecord) : Bytes := Wire.write r.stored.fields

/-- The record with the given written form. -/
def SessionRecord.deserialize (bs : Bytes) : Except Error SessionRecord :=
  match (Wire.read depthLimit bs).bind (StoredRecord.ofFields? depthLimit) with
  | some r => r.record
  | none => .error .undecodable

end MultiDevice
