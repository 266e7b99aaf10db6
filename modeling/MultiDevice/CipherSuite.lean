import MultiDevice.Primitive.Curve25519
import MultiDevice.Primitive.Ed25519
import MultiDevice.Primitive.GcmSiv
import MultiDevice.Primitive.Hkdf

/-!
# The cryptographic functions in use

The protocol is built on six functions and says nothing about how they work. A cipher suite
supplies them.

## Main definitions

* `CipherSuite`: key agreement, signatures, hashing, keyed hashing, key derivation and
  authenticated encryption
* `CipherSuite.standard`: X25519, Ed25519, SHA-256 and AES-256 in GCM-SIV mode
-/

namespace MultiDevice

/-- The cryptographic functions that the protocol is built on. -/
class CipherSuite where
  /-- The public half of an agreement secret. -/
  publicOf : (secret : Block 32) → Block 32
  /-- What the owner of a secret shares with the owner of a public key. -/
  agree : (secret publicKey : Block 32) → Block 32
  /-- The public half of a signing seed. -/
  verifyingKeyOf : (seed : Block 32) → Block 32
  /-- Whether 32 bytes can be the public half of a signing seed. -/
  isVerifyingKey : (key : Block 32) → Bool
  /-- The signature of a message under a seed. -/
  sign : (seed : Block 32) → (message : Bytes) → Block 64
  /-- Accepts a signature, or says why not. -/
  verify : (key : Block 32) → (message : Bytes) → (signature : Block 64) →
    Except SignatureFault Unit
  /-- The digest of a message. -/
  digest : (message : Bytes) → Block 32
  /-- The keyed digest of a message. -/
  mac : (key message : Bytes) → Block 32
  /-- Bytes of key material from a secret, for a purpose. -/
  derive : (salt input info : Bytes) → (n : Nat) → Block n
  /-- Encrypts a plaintext and authenticates it together with associated data. It takes plaintexts
  of any length; that implementations refuse more than 2³⁶ bytes is left out. -/
  encrypt : (key : Block 32) → (nonce : Block 12) → (data plaintext : Bytes) → Bytes
  /-- The plaintext of an encrypted text, if it is authentic together with the data. -/
  decrypt? : (key : Block 32) → (nonce : Block 12) → (data ciphertext : Bytes) → Option Bytes

/-- X25519, Ed25519, SHA-256, and AES-256 in GCM-SIV mode. -/
@[reducible] def CipherSuite.standard : CipherSuite where
  publicOf := Curve25519.publicOf
  agree := Curve25519.agree
  verifyingKeyOf := Ed25519.verifyingKeyOf
  isVerifyingKey := Ed25519.isVerifyingKey
  sign := Ed25519.sign
  verify := Ed25519.verify
  digest := sha256
  mac := hmac
  derive := hkdf
  encrypt := GcmSiv.encrypt
  decrypt? := GcmSiv.decrypt?

end MultiDevice
