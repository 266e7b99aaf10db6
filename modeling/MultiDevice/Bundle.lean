import MultiDevice.Key.Public
import Std.Data.ExtTreeMap

/-!
# Bundles

A device publishes its public keys as a bundle. Each initiator of a session is handed a copy with
at most one of the one-time keys.

## Main definitions

* `Credentials`: the signed part of a bundle, with `Credentials.verify`
* `DeviceBundle`: what a device publishes
* `PreKeyBundle`: what one initiator is handed
-/

namespace MultiDevice

/-- A numbered public key. -/
structure NumberedKey where
  /-- The number by which the owner finds the secret half. -/
  id : UInt32
  /-- The public half. -/
  key : PublicKey
  deriving DecidableEq, Repr

/-- The public keys of a device that its signature binds together. -/
structure Credentials where
  /-- The identity for key agreement. -/
  identity : PublicKey
  /-- The identity for signatures. -/
  signingKey : Block 32
  /-- The signed pre-key in use. -/
  signedPreKey : NumberedKey
  /-- The signature on the signed pre-key. -/
  signature : Block 64
  deriving DecidableEq, Repr

/-- What a device publishes for those who want to start a session with it. -/
structure DeviceBundle extends Credentials where
  /-- The one-time pre-keys to be handed out, by number. -/
  oneTimePreKeys : Std.ExtTreeMap UInt32 PublicKey

/-- What one initiator needs to start a session with a device. -/
structure PreKeyBundle extends Credentials where
  /-- A one-time pre-key, if there was one. -/
  oneTimePreKey : Option NumberedKey
  deriving DecidableEq, Repr

/-- The bundle handed to one initiator, with the one-time pre-key picked if it is there. -/
def DeviceBundle.pick (b : DeviceBundle) (picked : Option UInt32) : PreKeyBundle :=
  { b.toCredentials with
    oneTimePreKey := picked.bind fun id => (b.oneTimePreKeys[id]?).map fun key => { id, key } }

variable [CipherSuite]

/-- Takes 32 bytes for a public signing key if they can be one. -/
def parseSigningKey (key : Block 32) : Except Error (Block 32) :=
  if CipherSuite.isVerifyingKey key then .ok key else .error .signingKeyNotAPoint

/-- Checks that the signing key signed the signed pre-key. -/
def Credentials.verify (c : Credentials) : Except Error Unit :=
  match CipherSuite.verify c.signingKey c.signedPreKey.key.bytes.toList c.signature with
  | .ok () => .ok ()
  | .error fault => .error (.signatureRefused fault)

end MultiDevice
