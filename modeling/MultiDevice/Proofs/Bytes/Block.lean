import Mathlib.Algebra.Ring.Nat
import MultiDevice.Bytes.Block

/-!
# Numbers and parts are read back from blocks

Every byte string spells a number that fits in it, and is what that number is written as. So the
numbers of thirty-two bits and the strings of four bytes correspond to each other. Blocks that stand
one after the other are told apart because their lengths are known.

## Main results

* `Bytes.bigEndian_ofBigEndian`: a byte string is read and written again
* `Bytes.ofNat_ofBigEndian_bigEndian`, `Bytes.bigEndian_toNat_ofNat`: numbers of thirty-two bits and
  strings of four bytes
* `Block.append_inj`, `Block.append_split`: blocks are known from where they stand side by side
-/

namespace MultiDevice

namespace Bytes

theorem littleEndian_ofLittleEndian (bs : Bytes) :
    littleEndian bs.length (ofLittleEndian bs) = bs := by
  induction bs with
  | nil => rfl
  | cons b bs ih =>
    have hb := b.toNat_lt
    have hhead : UInt8.ofNat (b.toNat + 256 * ofLittleEndian bs) = b := by
      rw [← UInt8.toNat_inj, UInt8.toNat_ofNat']
      omega
    have htail : (b.toNat + 256 * ofLittleEndian bs) / 256 = ofLittleEndian bs := by omega
    rw [ofLittleEndian, List.length_cons, littleEndian, hhead, htail, ih]

theorem ofLittleEndian_lt (bs : Bytes) : ofLittleEndian bs < 256 ^ bs.length := by
  induction bs with
  | nil => exact Nat.one_pos
  | cons b bs ih =>
    have hb := b.toNat_lt
    rw [ofLittleEndian, List.length_cons, Nat.pow_succ]
    omega

theorem bigEndian_ofBigEndian (bs : Bytes) : bigEndian bs.length (ofBigEndian bs) = bs := by
  rw [bigEndian, ofBigEndian, ← List.length_reverse, littleEndian_ofLittleEndian,
    List.reverse_reverse]

theorem ofBigEndian_lt (bs : Bytes) : ofBigEndian bs < 256 ^ bs.length := by
  rw [ofBigEndian, ← List.length_reverse]
  exact ofLittleEndian_lt _

/-- A number of thirty-two bits is read again from its four bytes. -/
theorem ofNat_ofBigEndian_bigEndian (n : UInt32) :
    UInt32.ofNat (ofBigEndian (bigEndian 4 n.toNat)) = n := by
  rw [ofBigEndian_bigEndian, ← UInt32.toNat_inj, UInt32.toNat_ofNat']
  have := n.toNat_lt
  simp only [Nat.one_shiftLeft]
  omega

/-- Four bytes are written again from the number that they spell. -/
theorem bigEndian_toNat_ofNat {bs : Bytes} (h : bs.length = 4) :
    bigEndian 4 (UInt32.ofNat (ofBigEndian bs)).toNat = bs := by
  have hlt := ofBigEndian_lt bs
  rw [h] at hlt
  rw [UInt32.toNat_ofNat_of_lt' hlt, ← h, bigEndian_ofBigEndian]

theorem bigEndian_toNat_inj {m n : UInt32} (h : bigEndian 4 m.toNat = bigEndian 4 n.toNat) :
    m = n := by
  rw [← ofNat_ofBigEndian_bigEndian m, h, ofNat_ofBigEndian_bigEndian]

end Bytes

namespace Block

variable {m n : Nat}

theorem append_inj {a a' : Block m} {b b' : Block n} :
    a.append b = a'.append b' ↔ a = a' ∧ b = b' := by
  refine ⟨fun h => ?_, fun ⟨ha, hb⟩ => ha ▸ hb ▸ rfl⟩
  have hsplit := congrArg (split m n) h
  rw [split_append, split_append] at hsplit
  exact Prod.mk.inj hsplit

/-- The parts of a block make up the block. -/
theorem append_split (m n : Nat) (a : Block (m + n)) :
    (split m n a).1.append (split m n a).2 = a :=
  ext (List.take_append_drop m a.toList)

end Block

end MultiDevice
