import MultiDevice.Entropy
import MultiDevice.Ratchet.Chain
import MultiDevice.Ratchet.Message
import Std.Data.ExtTreeMap

/-!
# The double ratchet

Each party sends on a chain of its own. Whenever a message shows a new ratchet key of the peer, the
party derives a receiving chain for it, draws a new ratchet key of its own and derives a new sending
chain: old keys are gone, and a key that leaked is of no use after the next turn. Keys of messages
that were overtaken are put aside until these arrive.

## Main definitions

* `Ratchet`: the state of one party
* `Ratchet.initiate`, `Ratchet.respond`: the two states to start from
* `Ratchet.encrypt`: the next message
* `Ratchet.decrypt`: the plaintext of a message and the state after it
* `Ratchet.skip`, `Ratchet.turn`: putting keys aside, and taking up a new ratchet key
-/

namespace MultiDevice

/-- Names the key of a message that was overtaken. -/
structure SkippedId where
  /-- The peer's ratchet key, as the bytes in which it was given. -/
  ratchetKey : Block 32
  /-- The number of the message on that ratchet key. -/
  number : UInt32
  deriving DecidableEq, Repr

namespace SkippedId

/-- The bytes of the ratchet key. -/
def keyBytes (i : SkippedId) : Bytes := i.ratchetKey.toList

instance : Ord SkippedId := ⟨compareLex (compareOn keyBytes) (compareOn number)⟩

instance : Std.TransOrd SkippedId :=
  inferInstanceAs (Std.TransCmp (compareLex (compareOn keyBytes) (compareOn number)))

instance : Std.LawfulEqOrd SkippedId where
  eq_of_compare {a b} h := by
    have h : compareLex (compareOn keyBytes) (compareOn number) a b = .eq := h
    rw [compareLex_eq_eq] at h
    cases a; cases b
    simp only [compareOn, Std.LawfulEqCmp.compare_eq_iff_eq, keyBytes] at h
    simp [h, Block.ext h.1]

end SkippedId

/-- Message keys put aside, by the ratchet key and the number of their messages. -/
abbrev SkippedKeys : Type := Std.ExtTreeMap SkippedId (Block 32)

/-- The state of one party of a double ratchet. -/
structure Ratchet where
  /-- The identities that every message vouches for. -/
  associatedData : Block 64
  /-- The secret half of the own ratchet key. -/
  secret : Secret
  /-- The peer's latest ratchet key, once one is known. -/
  remote : Option PublicKey
  /-- The key from which the next chains are derived. -/
  rootKey : Block 32
  /-- The chain of sent messages, once there is one. -/
  sending : Option Chain
  /-- The chain of messages on the peer's latest ratchet key, once there is one. -/
  receiving : Option Chain
  /-- How many messages were sent on the previous own ratchet key. -/
  previousLength : UInt32
  /-- The keys of overtaken messages. -/
  skipped : SkippedKeys
  /-- How far ahead of its chain a message may be. -/
  maxSkip : UInt32
  deriving DecidableEq

namespace Ratchet

/-- What remains after the secrets were erased. -/
def wipe (r : Ratchet) : Ratchet :=
  { r with
    secret := Block.zero 32
    rootKey := Block.zero 32
    sending := r.sending.map Chain.wipe
    receiving := r.receiving.map Chain.wipe
    skipped := ∅ }

/-- Whether the party can send: the responder cannot before its first message arrived. -/
def canSend (r : Ratchet) : Bool := r.sending.isSome

/-- The bytes that a message with this header vouches for. -/
def vouched (associatedData : Block 64) (h : MessageHeader) : Bytes :=
  associatedData.toList ++ h.toBytes.toList

/-- The responder's state: its ratchet key is the secret half of its signed pre-key. -/
def respond (rootKey : Block 32) (secret : Secret) (maxSkip : UInt32)
    (associatedData : Block 64) : Ratchet :=
  { associatedData, secret, remote := none, rootKey, sending := none, receiving := none
    previousLength := 0, skipped := ∅, maxSkip }

variable [CipherSuite]

/-- The own ratchet key. -/
def publicKey (r : Ratchet) : PublicKey := r.secret.publicKey

/-- The next root key and the key of a new chain, from a shared secret. -/
def deriveChain (rootKey shared : Block 32) : Block 32 × Block 32 :=
  Block.split 32 32
    (CipherSuite.derive rootKey.toList shared.toList "Cohort-Ratchet-Root".toUTF8.data.toList 64)

/-- The cipher key and the nonce of a message key, which serves only once. -/
def deriveCipher (messageKey : Block 32) : Block 32 × Block 12 :=
  Block.split 32 12
    (CipherSuite.derive [] messageKey.toList "Cohort-Ratchet-Message".toUTF8.data.toList 44)

/-- Encrypts under a message key. A plaintext of more than 2³⁶ bytes, which the cipher refuses once
the chain has moved on, is left out: here every plaintext is encrypted. -/
def encipher (messageKey : Block 32) (data plaintext : Bytes) : Bytes :=
  let (key, nonce) := deriveCipher messageKey
  CipherSuite.encrypt key nonce data plaintext

/-- Decrypts under a message key. -/
def decipher (messageKey : Block 32) (data ciphertext : Bytes) : Except Error Bytes :=
  let (key, nonce) := deriveCipher messageKey
  match CipherSuite.decrypt? key nonce data ciphertext with
  | some plaintext => .ok plaintext
  | none => .error .messageNotAuthentic

/-- The initiator's state: it draws a ratchet key and can send at once. -/
def initiate (secret : Block 32) (remote : PublicKey) (maxSkip : UInt32)
    (associatedData : Block 64) : Draw Ratchet := do
  let own : Secret ← Entropy.block 32
  let (rootKey, chainKey) := deriveChain secret (own.agree remote)
  return {
    associatedData, secret := own, remote := some remote, rootKey
    sending := some (Chain.ofKey chainKey), receiving := none
    previousLength := 0, skipped := ∅, maxSkip }

/-- The next message. A party that cannot send is left as it was; an exhausted chain is not. -/
def encrypt (plaintext : Bytes) : EStateM Error Ratchet RatchetMessage := fun r =>
  match r.sending with
  | none => .error .noSendingChain r
  | some chain =>
    let header := { ratchetKey := r.publicKey, previousLength := r.previousLength
                    number := chain.index }
    match chain.advance with
    | .error err chain => .error err { r with sending := some chain }
    | .ok key chain =>
      .ok { header, ciphertext := encipher key (vouched r.associatedData header) plaintext }
        { r with sending := some chain }

/-- Puts the next `count` message keys of a chain aside, under the peer's ratchet key. -/
def skipKeys (remote : PublicKey) :
    Nat → Chain → SkippedKeys → Except Error (Chain × SkippedKeys)
  | 0, chain, skipped => .ok (chain, skipped)
  | count + 1, chain, skipped =>
    match chain.advance with
    | .error err _ => .error err
    | .ok key next =>
      skipKeys remote count next (skipped.insert ⟨remote.bytes, chain.index⟩ key)

/-- Puts aside the keys of the messages before number `target` on the peer's latest ratchet key,
unless there are more than allowed. -/
def skip (r : Ratchet) (target : UInt32) : Except Error Ratchet :=
  match r.remote, r.receiving with
  | some remote, some chain =>
    if min (chain.index.toNat + r.maxSkip.toNat) Chain.lastIndex.toNat < target.toNat then
      .error .tooManySkipped
    else
      match skipKeys remote (target.toNat - chain.index.toNat) chain r.skipped with
      | .error err => .error err
      | .ok (chain, skipped) => .ok { r with receiving := some chain, skipped }
  | _, _ => .ok r

/-- Takes up a new ratchet key of the peer: derives the receiving chain for it, draws an own ratchet
key and derives the sending chain. -/
def turn (r : Ratchet) (remote : PublicKey) : Draw Ratchet := do
  let (rootKey, receivingKey) := deriveChain r.rootKey (r.secret.agree remote)
  let own : Secret ← Entropy.block 32
  let (rootKey, sendingKey) := deriveChain rootKey (own.agree remote)
  return { r with
    secret := own
    remote := some remote
    rootKey
    sending := some (Chain.ofKey sendingKey)
    receiving := some (Chain.ofKey receivingKey)
    previousLength := r.sending.elim 0 Chain.index }

/-- Whether the peer's latest ratchet key names the same point as `key`. -/
def follows (r : Ratchet) (key : PublicKey) : Bool :=
  match r.remote with
  | some remote => decide (remote.SamePoint key)
  | none => false

/-- Takes up the ratchet key of a header if it is new, after putting aside what is left of the
previous chain. -/
def catchUp (r : Ratchet) (header : MessageHeader) : Draw Ratchet := do
  if r.follows header.ratchetKey then return r
  else
    let r ← Draw.ofExcept (r.skip header.previousLength)
    r.turn header.ratchetKey

/-- Reads a message on the chain of its ratchet key. -/
def readOnChain (r : Ratchet) (m : RatchetMessage) : Except Error (Bytes × Ratchet) := do
  let r ← r.skip m.header.number
  match r.receiving with
  | none => throw .noReceivingChain
  | some chain =>
    if m.header.number < chain.index then throw .duplicateMessage
    else
      match chain.advance with
      | .error err _ => throw err
      | .ok key chain =>
        let plaintext ← decipher key (vouched r.associatedData m.header) m.ciphertext
        return (plaintext, { r with receiving := some chain })

/-- The plaintext of a message and the state after it: a key put aside for the message is used up,
otherwise the message is read on its chain. A message that cannot be read leaves no trace but what
was drawn. -/
def decrypt (r : Ratchet) (m : RatchetMessage) : Draw (Bytes × Ratchet) := do
  let id : SkippedId := ⟨m.header.ratchetKey.bytes, m.header.number⟩
  match r.skipped[id]? with
  | some key =>
    let plaintext ← Draw.ofExcept (decipher key (vouched r.associatedData m.header) m.ciphertext)
    return (plaintext, { r with skipped := r.skipped.erase id })
  | none =>
    let r ← r.catchUp m.header
    Draw.ofExcept (r.readOnChain m)

end Ratchet

end MultiDevice
