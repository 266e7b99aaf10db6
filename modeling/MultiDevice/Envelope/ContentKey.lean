import MultiDevice.Entropy
import MultiDevice.CipherSuite

/-!
# Content keys

A payload is encrypted once, under a key made for it alone. The sender's address is authenticated
with it.

## Main definitions

* `ContentKey`, `Payload`: keys and what they encrypt
* `ContentKey.encrypt`, `ContentKey.decrypt`: under a fresh nonce, and back
-/

namespace MultiDevice

/-- The key of a single payload. -/
structure ContentKey where
  /-- The bytes of the key. -/
  bytes : Block 32
  deriving DecidableEq, Repr

/-- An encrypted message body. -/
structure Payload where
  /-- The nonce that it was encrypted with. -/
  nonce : Block 12
  /-- The encrypted text with its tag. -/
  ciphertext : Bytes
  deriving DecidableEq, Repr

namespace ContentKey

/-- A new key. -/
def generate : Draw ContentKey := do
  return ⟨← Entropy.block 32⟩

/-- The key that a byte string is. -/
def ofBytes (bs : Bytes) : Except Error ContentKey :=
  match Block.ofList? 32 bs with
  | some b => .ok ⟨b⟩
  | none => .error .contentKeyLength

variable [CipherSuite]

/-- Encrypts a body under a fresh nonce, together with the address of its sender. -/
def encrypt (key : ContentKey) (plaintext : Bytes) (sender : DeviceAddress) : Draw Payload := do
  let nonce ← Entropy.block 12
  return { nonce, ciphertext := CipherSuite.encrypt key.bytes nonce sender.toBytes plaintext }

/-- The body of a payload from a sender. -/
def decrypt (key : ContentKey) (payload : Payload) (sender : DeviceAddress) :
    Except Error Bytes :=
  match CipherSuite.decrypt? key.bytes payload.nonce sender.toBytes payload.ciphertext with
  | some plaintext => .ok plaintext
  | none => .error .payloadNotAuthentic

end ContentKey

end MultiDevice
