import MultiDevice.Bundle
import MultiDevice.Key.OneTime
import MultiDevice.Key.Signed

/-!
# Agreement on a first secret

An initiator agrees on a secret with a responder who is offline: it combines its identity and a
fresh ephemeral key with the keys of the responder's bundle. The responder repeats the computation
from the other halves once the first message arrives.

## Main definitions

* `Agreement.initiate`: the initiator's side, after the bundle was verified
* `Agreement.respond`: the responder's side
* `Agreement.associatedData`: the identities of both sides, initiator first
-/

namespace MultiDevice.Agreement

/-- The salt that sets these secrets apart from other derivations. -/
def salt : Bytes := "Cohort-X3DH-Salt".toUTF8.data.toList

/-- The identities of both sides, initiator first, which every message of the session vouches
for. -/
def associatedData (initiator responder : PublicKey) : Block 64 :=
  Block.append (m := 32) (n := 32) initiator.bytes responder.bytes

/-- What the initiator obtains. -/
structure Initiation where
  /-- The secret that both sides come to share. -/
  secret : Block 32
  /-- The ephemeral key that the responder needs. -/
  ephemeral : PublicKey
  deriving DecidableEq, Repr

variable [CipherSuite]

/-- The secret made of three shared secrets, and of a fourth if a one-time pre-key took part. -/
def combine (info : Bytes) (first second third : Block 32) (fourth : Option (Block 32)) :
    Block 32 :=
  let extra := match fourth with
    | some b => b.toList
    | none => []
  CipherSuite.derive salt (first.toList ++ second.toList ++ third.toList ++ extra) info 32

/-- The initiator's side: verifies the bundle, draws an ephemeral key and combines the identity
with the signed pre-key, and the ephemeral key with the identity and the pre-keys. -/
def initiate (info : Bytes) (identity : IdentityKey) (bundle : PreKeyBundle) :
    Draw Initiation := do
  match bundle.verify with
  | .error err => throw err
  | .ok () =>
    let ephemeral : Secret ← Entropy.block 32
    let signed := bundle.signedPreKey.key
    return {
      secret := combine info (identity.secret.agree signed) (ephemeral.agree bundle.identity)
        (ephemeral.agree signed) (bundle.oneTimePreKey.map fun k => ephemeral.agree k.key)
      ephemeral := ephemeral.publicKey }

/-- The responder's side: the same combinations from the other halves. -/
def respond (info : Bytes) (identity : IdentityKey) (signedPreKey : SignedPreKey)
    (oneTimePreKey : Option OneTimePreKey) (initiator ephemeral : PublicKey) : Block 32 :=
  combine info (signedPreKey.secret.agree initiator) (identity.secret.agree ephemeral)
    (signedPreKey.secret.agree ephemeral) (oneTimePreKey.map fun k => k.secret.agree ephemeral)

end MultiDevice.Agreement
