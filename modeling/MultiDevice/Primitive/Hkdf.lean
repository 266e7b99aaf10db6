import MultiDevice.Primitive.Sha2

/-!
# Keyed hashing and key derivation

## Main definitions

* `hmac`: the keyed hash of a message (HMAC over SHA-256)
* `hkdf`: key material of any length from a secret (HKDF over SHA-256)
-/

namespace MultiDevice

/-- The bytes hashed at a time by SHA-256. -/
def hmacBlockLength : Nat := 64

/-- The keyed hash of a message: a key longer than a block is hashed first, and the two passes use
the padded key with every byte changed by `0x36` and by `0x5c`. -/
def hmac (key message : Bytes) : Block 32 :=
  let key := if key.length > hmacBlockLength then (sha256 key).toList else key
  let padded := (Block.ofPrefix hmacBlockLength key).toList
  let inner := sha256 (padded.map (· ^^^ 0x36) ++ message)
  sha256 (padded.map (· ^^^ 0x5c) ++ inner.toList)

/-- The first `count` output blocks of key derivation, numbered from `index`, each the keyed hash
of the one before, the purpose and its number. -/
def hkdfBlocks (extracted info : Bytes) : Nat → Nat → Bytes → Bytes
  | 0, _, _ => []
  | count + 1, index, previous =>
    let block := (hmac extracted (previous ++ info ++ [UInt8.ofNat index])).toList
    block ++ hkdfBlocks extracted info count (index + 1) block

/-- Derives `n` bytes from the secret `input` under a public `salt` for the purpose `info`. -/
def hkdf (salt input info : Bytes) (n : Nat) : Block n :=
  let extracted := (hmac salt input).toList
  Block.ofPrefix n (hkdfBlocks extracted info ((n + 31) / 32) 1 [])

end MultiDevice
