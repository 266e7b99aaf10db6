import MultiDevice.Entropy
import MultiDevice.Key.Public

/-!
# Identity keys

The identity of a device is a pair of secrets, one for signing and one for key agreement. A new
identity derives both from one seed. It changes only when the device is provisioned again.

## Main definitions

* `IdentityKey`: the two secrets, with `generate`, `toBytes` and `ofBytes`
* `IdentityKey.publicKey`, `IdentityKey.verifyingKey`, `IdentityKey.sign`: what others see
* `IdentityKey.wipe`: the identity after its secrets were erased

## Main results

* `IdentityKey.ofBytes_toBytes`: the written form determines the identity
-/

namespace MultiDevice

/-- The long-term secrets of a device. -/
structure IdentityKey where
  /-- The seed of the signing key. -/
  signingSeed : Block 32
  /-- The secret for key agreement. -/
  secret : Secret
  deriving DecidableEq, Repr

namespace IdentityKey

/-- A new identity, both secrets from one seed. -/
def generate : Draw IdentityKey := do
  let seed ← Entropy.block 32
  return ⟨seed, seed⟩

/-- The signing seed followed by the agreement secret. -/
def toBytes (k : IdentityKey) : Block 64 := Block.append (m := 32) (n := 32) k.signingSeed k.secret

/-- The identity with the given written form. -/
def ofBytes (b : Block 64) : IdentityKey :=
  let halves := Block.split 32 32 b
  ⟨halves.1, halves.2⟩

@[simp] theorem ofBytes_toBytes (k : IdentityKey) : ofBytes k.toBytes = k := by
  simp [ofBytes, toBytes]

/-- What remains after the secrets were erased: the agreement secret becomes zero. -/
def wipe (k : IdentityKey) : IdentityKey := { k with secret := Block.zero 32 }

variable [CipherSuite]

/-- The public agreement key, by which others know the device. -/
def publicKey (k : IdentityKey) : PublicKey := k.secret.publicKey

/-- The public signing key. -/
def verifyingKey (k : IdentityKey) : Block 32 := CipherSuite.verifyingKeyOf k.signingSeed

/-- The signature of a message. -/
def sign (k : IdentityKey) (message : Bytes) : Block 64 := CipherSuite.sign k.signingSeed message

end IdentityKey

end MultiDevice
