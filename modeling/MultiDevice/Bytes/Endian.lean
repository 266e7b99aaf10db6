/-!
# Byte strings and the numbers they spell

A byte string is a list of bytes. A number is written in a fixed count of bytes, the most
significant first (`bigEndian`) or last (`littleEndian`); what does not fit is dropped from the
significant end.

## Main definitions

* `Bytes`: byte strings
* `littleEndian`, `bigEndian`: a number in `width` bytes
* `ofLittleEndian`, `ofBigEndian`: the number that a byte string spells

## Main results

* `length_littleEndian`, `length_bigEndian`: a number takes exactly the bytes asked for
* `ofLittleEndian_littleEndian`, `ofBigEndian_bigEndian`: writing keeps the low `8 * width` bits of
  the number
-/

namespace MultiDevice

/-- A byte string. -/
abbrev Bytes : Type := List UInt8

namespace Bytes

/-- The `width` low bytes of `n`, the least significant first. -/
def littleEndian : Nat → Nat → Bytes
  | 0, _ => []
  | width + 1, n => UInt8.ofNat n :: littleEndian width (n / 256)

/-- The number whose bytes are given, the least significant first. -/
def ofLittleEndian : Bytes → Nat
  | [] => 0
  | b :: bs => b.toNat + 256 * ofLittleEndian bs

/-- The `width` low bytes of `n`, the most significant first. -/
def bigEndian (width n : Nat) : Bytes := (littleEndian width n).reverse

/-- The number whose bytes are given, the most significant first. -/
def ofBigEndian (bs : Bytes) : Nat := ofLittleEndian bs.reverse

@[simp] theorem length_littleEndian (width n : Nat) : (littleEndian width n).length = width := by
  induction width generalizing n with
  | zero => rfl
  | succ width ih => simp [littleEndian, ih]

@[simp] theorem length_bigEndian (width n : Nat) : (bigEndian width n).length = width := by
  simp [bigEndian]

theorem ofLittleEndian_littleEndian (width n : Nat) :
    ofLittleEndian (littleEndian width n) = n % 1 <<< (8 * width) := by
  induction width generalizing n with
  | zero => simp [littleEndian, ofLittleEndian, Nat.mod_one]
  | succ width ih =>
    have step : 1 <<< (8 * (width + 1)) = 256 * 1 <<< (8 * width) := by
      rw [Nat.mul_succ, Nat.add_comm, Nat.shiftLeft_add, Nat.shiftLeft_eq, Nat.shiftLeft_eq,
        Nat.shiftLeft_eq, Nat.one_mul, Nat.one_mul]
    rw [littleEndian, ofLittleEndian, ih, UInt8.toNat_ofNat', step, Nat.mod_mul]

theorem ofBigEndian_bigEndian (width n : Nat) :
    ofBigEndian (bigEndian width n) = n % 1 <<< (8 * width) := by
  simp [ofBigEndian, bigEndian, ofLittleEndian_littleEndian]

/-- Bytewise exclusive or, as long as the shorter string. -/
def xor (a b : Bytes) : Bytes := List.zipWith (· ^^^ ·) a b

end Bytes

end MultiDevice
