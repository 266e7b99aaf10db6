import MultiDevice.CipherSuite
import MultiDevice.Error

/-!
# Symmetric chains

A chain turns one key into a sequence of message keys. Each step derives the message key of the
present index and a next chain key from which the present one cannot be found.

## Main definitions

* `Chain`: a chain key and the index of the next message key
* `Chain.messageKey`, `Chain.nextKey`: the two keys derived at a step
* `Chain.advance`: one step
-/

namespace MultiDevice

/-- A symmetric chain. -/
structure Chain where
  /-- The key from which the next keys are derived. -/
  key : Block 32
  /-- The number of the next message key. -/
  index : UInt32
  deriving DecidableEq, Repr

namespace Chain

/-- A chain that has not been used. -/
def ofKey (key : Block 32) : Chain := { key, index := 0 }

/-- The last index of a chain. -/
def lastIndex : UInt32 := 4294967295

/-- The chain after its key was erased. -/
def wipe (_ : Chain) : Chain := { key := Block.zero 32, index := 0 }

variable [CipherSuite]

/-- The message key of the present index. -/
def messageKey (c : Chain) : Block 32 := CipherSuite.mac c.key.toList [1]

/-- The chain key of the next index. -/
def nextKey (c : Chain) : Block 32 := CipherSuite.mac c.key.toList [2]

/-- Takes the message key of the present index and moves on. At the last index there is no key to
take; the chain key moves on all the same, so the chain stays exhausted. -/
def advance : EStateM Error Chain (Block 32) := fun c =>
  if c.index = lastIndex then .error .chainExhausted { c with key := c.nextKey }
  else .ok c.messageKey { key := c.nextKey, index := c.index + 1 }

end Chain

end MultiDevice
