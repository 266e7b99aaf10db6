import MultiDevice.Key.Identity
import Std.Data.ExtTreeMap

/-!
# Signed pre-keys

A signed pre-key is an agreement key of medium term, vouched for by the identity. A device keeps a
ring of them: one is current, the others are kept until their scheduled expiry so that sessions
started with them can still be answered.

## Main definitions

* `SignedPreKey`: a numbered secret and when it was made
* `SignedPreKeyRing`: the keys of a device, with `create`, `promote`, `expire` and `purge`
-/

namespace MultiDevice

/-- A numbered agreement secret that the identity signs. -/
structure SignedPreKey where
  /-- The number by which others refer to the key. -/
  id : UInt32
  /-- When the key was made. -/
  createdAt : Time
  /-- The secret half. -/
  secret : Secret
  deriving DecidableEq, Repr

namespace SignedPreKey

/-- A new key with the given number. -/
def generate (id : UInt32) (now : Time) : Draw SignedPreKey := do
  let secret ← Entropy.block 32
  return { id, createdAt := now, secret }

/-- The number in four bytes, the creation time in whole seconds in eight, and the secret. -/
def toBytes (k : SignedPreKey) : Block 44 :=
  Block.append (m := 12) (n := 32)
    (Block.append (Block.bigEndian 4 k.id.toNat) (Block.bigEndian 8 k.createdAt.epochSeconds))
    k.secret

/-- The key with the given written form, unless its creation time is not representable. -/
def ofBytes? (b : Block 44) : Option SignedPreKey :=
  let (front, secret) := Block.split 12 32 b
  let (id, seconds) := Block.split 4 8 front
  let createdAt := Time.ofEpochSeconds (Bytes.ofBigEndian seconds.toList)
  if createdAt.IsRepresentable then
    some { id := UInt32.ofNat (Bytes.ofBigEndian id.toList), createdAt, secret }
  else none

/-- What remains after the key was erased: its creation time. -/
def wipe (k : SignedPreKey) : SignedPreKey := { k with id := 0, secret := Block.zero 32 }

variable [CipherSuite]

/-- The public half. -/
def publicKey (k : SignedPreKey) : PublicKey := k.secret.publicKey

/-- The signature of an identity on the public half. -/
def signature (k : SignedPreKey) (identity : IdentityKey) : Block 64 :=
  identity.sign k.publicKey.bytes.toList

end SignedPreKey

/-- The signed pre-keys of a device. -/
structure SignedPreKeyRing where
  /-- The retained keys by number. -/
  keys : Std.ExtTreeMap UInt32 SignedPreKey
  /-- When superseded keys are to be dropped. -/
  expiries : Std.ExtTreeMap UInt32 Time
  /-- The number of the key in use. -/
  current : UInt32
  /-- The number of the next key. -/
  nextId : UInt32

namespace SignedPreKeyRing

/-- A ring with one new key, the current one, numbered `first`. -/
def startingAt (first : UInt32) (now : Time) : Draw SignedPreKeyRing := do
  let key ← SignedPreKey.generate first now
  return { keys := (∅ : Std.ExtTreeMap UInt32 SignedPreKey).insert first key
           expiries := ∅
           current := first
           nextId := first + 1 }

/-- Makes the next key without putting it in use. A key that already has its number stays, and is
the answer. -/
def create (r : SignedPreKeyRing) (now : Time) : Draw (SignedPreKey × SignedPreKeyRing) := do
  let key ← SignedPreKey.generate r.nextId now
  let kept := (r.keys[r.nextId]?).getD key
  return (kept, { r with keys := r.keys.insert r.nextId kept, nextId := r.nextId + 1 })

/-- Puts a retained key in use, cancels its expiry and answers the number of the key it
supersedes. -/
def promote (r : SignedPreKeyRing) (id : UInt32) :
    Except Error (Option UInt32 × SignedPreKeyRing) :=
  if id ∈ r.keys then
    .ok (if r.current = id then none else some r.current,
      { r with expiries := r.expiries.erase id, current := id })
  else .error (.unknownSignedPreKey id)

/-- The key in use. -/
def current? (r : SignedPreKeyRing) : Except Error SignedPreKey :=
  match r.keys[r.current]? with
  | some key => .ok key
  | none => .error .currentSignedPreKeyMissing

/-- The retained key with a number. -/
def get? (r : SignedPreKeyRing) (id : UInt32) : Option SignedPreKey := r.keys[id]?

/-- Schedules a superseded key to be dropped; a key that is not retained needs no schedule. -/
def expire (r : SignedPreKeyRing) (id : UInt32) (expiry : Time) :
    Except Error SignedPreKeyRing :=
  if id = r.current then .error .currentCannotExpire
  else if id ∈ r.keys then .ok { r with expiries := r.expiries.insert id expiry }
  else .ok r

/-- Whether a key is superseded and its expiry is not later than `now`. -/
def isDue (r : SignedPreKeyRing) (now : Time) (id : UInt32) : Bool :=
  id != r.current && (r.expiries[id]?).any fun expiry => decide (expiry ≤ now)

/-- Drops the superseded keys whose expiry is not later than `now`, and answers their numbers in
order. -/
def purge (r : SignedPreKeyRing) (now : Time) : List UInt32 × SignedPreKeyRing :=
  ((r.expiries.filter fun id _ => r.isDue now id).keys,
    { r with
      keys := r.keys.filter fun id _ => !r.isDue now id
      expiries := r.expiries.filter fun id _ => !r.isDue now id })

/-- The numbers of the retained keys, in order. -/
def ids (r : SignedPreKeyRing) : List UInt32 := r.keys.keys

/-- What remains after all keys were erased: the counters. -/
def wipe (r : SignedPreKeyRing) : SignedPreKeyRing := { r with keys := ∅, expiries := ∅ }

end SignedPreKeyRing

end MultiDevice
