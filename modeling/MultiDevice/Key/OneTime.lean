import MultiDevice.Key.Identity
import Std.Data.ExtTreeMap

/-!
# One-time pre-keys

A one-time pre-key serves a single session and is removed once that session was read. A device
keeps a pool of them and numbers them in the order in which they were made.

## Main definitions

* `OneTimePreKey`: a numbered secret
* `OneTimePreKeyPool`: the unused keys of a device, with `replenish` and `remove`
* `OneTimePreKeyPool.Refill`: computations that add keys and may fail on the way
-/

namespace MultiDevice

/-- A numbered agreement secret for a single use. -/
structure OneTimePreKey where
  /-- The number by which others refer to the key. -/
  id : UInt32
  /-- The secret half. -/
  secret : Secret
  deriving DecidableEq, Repr

namespace OneTimePreKey

/-- A new key with the given number. -/
def generate (id : UInt32) : Draw OneTimePreKey := do
  let secret ← Entropy.block 32
  return { id, secret }

/-- The number in four bytes and the secret. -/
def toBytes (k : OneTimePreKey) : Block 36 :=
  Block.append (m := 4) (n := 32) (Block.bigEndian 4 k.id.toNat) k.secret

/-- The key with the given written form. -/
def ofBytes (b : Block 36) : OneTimePreKey :=
  let (id, secret) := Block.split 4 32 b
  { id := UInt32.ofNat (Bytes.ofBigEndian id.toList), secret }

/-- What remains after the key was erased. -/
def wipe (_ : OneTimePreKey) : OneTimePreKey := { id := 0, secret := Block.zero 32 }

/-- The public half. -/
def publicKey [CipherSuite] (k : OneTimePreKey) : PublicKey := k.secret.publicKey

end OneTimePreKey

/-- The unused one-time pre-keys of a device. -/
structure OneTimePreKeyPool where
  /-- The keys by number. -/
  keys : Std.ExtTreeMap UInt32 OneTimePreKey
  /-- The number of the next key. -/
  nextId : UInt32

namespace OneTimePreKeyPool

/-- An empty pool whose first key gets the number `first`. -/
def startingAt (first : UInt32) : OneTimePreKeyPool := { keys := ∅, nextId := first }

/-- How many keys there are. -/
def count (p : OneTimePreKeyPool) : Nat := p.keys.size

/-- The key with a number. -/
def get? (p : OneTimePreKeyPool) (id : UInt32) : Option OneTimePreKey := p.keys[id]?

/-- The pool without one key, and whether it held it. -/
def remove (p : OneTimePreKeyPool) (id : UInt32) : Bool × OneTimePreKeyPool :=
  (p.keys.contains id, { p with keys := p.keys.erase id })

/-- The pool with one more key, filed under its own number. -/
def add (p : OneTimePreKeyPool) (key : OneTimePreKey) : OneTimePreKeyPool :=
  { keys := p.keys.insert key.id key, nextId := p.nextId + 1 }

/-- What remains after all keys were erased: the counter. -/
def wipe (p : OneTimePreKeyPool) : OneTimePreKeyPool := { p with keys := ∅ }

/-- A computation that adds keys to a pool. The keys added before a failure stay. -/
abbrev Refill : Type → Type := EStateM Error (OneTimePreKeyPool × Entropy)

/-- Adds one new key. -/
def generateOne : Refill OneTimePreKey := fun (p, e) =>
  match OneTimePreKey.generate p.nextId e with
  | .ok key e => .ok key (p.add key, e)
  | .error err e => .error err (p, e)

/-- Adds `count` new keys and answers them in the order in which they were made. -/
def generate : Nat → Refill (List OneTimePreKey)
  | 0 => return []
  | count + 1 => do
    let key ← generateOne
    let rest ← generate count
    return key :: rest

/-- Fills the pool up to `target` keys and answers how many were added. -/
def replenish (target : Nat) : Refill Nat := do
  let needed := target - (← get).1.count
  let _ ← generate needed
  return needed

/-- The public halves by number. -/
def publicKeys [CipherSuite] (p : OneTimePreKeyPool) : Std.ExtTreeMap UInt32 PublicKey :=
  p.keys.map fun _ key => key.publicKey

end OneTimePreKeyPool

end MultiDevice
