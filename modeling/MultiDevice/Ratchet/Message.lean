import MultiDevice.Key.Public

/-!
# Ratchet messages

A message is a header in the clear and a ciphertext. The header names the sender's ratchet key, the
length of the sender's previous chain and the number of the message on its chain.

## Main definitions

* `MessageHeader`, `RatchetMessage`: headers and messages
* `MessageHeader.toBytes`, `RatchetMessage.toBytes`: their written forms
* `RatchetMessage.ofBytes`: the message that a byte string is
-/

namespace MultiDevice

/-- What the receiver must know to find the key of a message. -/
structure MessageHeader where
  /-- The sender's ratchet key. -/
  ratchetKey : PublicKey
  /-- How many messages the sender sent on its previous ratchet key. -/
  previousLength : UInt32
  /-- The number of the message on this ratchet key. -/
  number : UInt32
  deriving DecidableEq, Repr

/-- A message of a ratchet. -/
structure RatchetMessage where
  /-- The header, authenticated but not encrypted. -/
  header : MessageHeader
  /-- The encrypted text with its tag. -/
  ciphertext : Bytes
  deriving DecidableEq, Repr

/-- The ratchet key, then the two numbers in four bytes each. -/
def MessageHeader.toBytes (h : MessageHeader) : Block 40 :=
  Block.append (m := 32) (n := 8) h.ratchetKey.bytes
    (Block.append (Block.bigEndian 4 h.previousLength.toNat) (Block.bigEndian 4 h.number.toNat))

/-- The header with the given written form. -/
def MessageHeader.ofBytes (b : Block 40) : MessageHeader :=
  let (key, numbers) := Block.split 32 8 b
  let (previousLength, number) := Block.split 4 4 numbers
  { ratchetKey := ⟨key⟩
    previousLength := UInt32.ofNat (Bytes.ofBigEndian previousLength.toList)
    number := UInt32.ofNat (Bytes.ofBigEndian number.toList) }

namespace RatchetMessage

/-- The header followed by the ciphertext. -/
def toBytes (m : RatchetMessage) : Bytes := m.header.toBytes.toList ++ m.ciphertext

/-- The message that a byte string is: its first forty bytes are the header. -/
def ofBytes (bs : Bytes) : Except Error RatchetMessage :=
  match Block.ofList? 40 (bs.take 40) with
  | some header => .ok { header := .ofBytes header, ciphertext := bs.drop 40 }
  | none => .error .messageFormat

end RatchetMessage

end MultiDevice
