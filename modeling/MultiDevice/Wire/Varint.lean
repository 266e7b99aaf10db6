import MultiDevice.Bytes.Endian

/-!
# Numbers of variable length

A number is written in groups of seven bits, the least significant group first; the top bit of a
byte says that another one follows. Numbers below `2 ^ 64` take at most ten bytes, and reading
accepts no more than that; it does accept groups of zeros at the end.

## Main definitions

* `Varint.write`: the written form of a number
* `Varint.read`: the number at the front of a byte string, and what follows it

## Main results

* `Varint.read_write`: reading undoes writing, whatever follows
-/

namespace MultiDevice.Varint

/-- The written form in at most `width` bytes. -/
def writeWithin : Nat → Nat → Bytes
  | 0, _ => []
  | width + 1, n =>
    if n < 128 then [UInt8.ofNat n]
    else UInt8.ofNat (n % 128 + 128) :: writeWithin width (n / 128)

/-- The written form of a number below `2 ^ 64`. -/
def write (n : Nat) : Bytes := writeWithin 10 n

/-- Reads at most `width` bytes; if all are used, the last one holds a single bit. -/
def readWithin : Nat → Bytes → Option (Nat × Bytes)
  | 0, _ => none
  | _ + 1, [] => none
  | width + 1, b :: bs =>
    if b < 128 then
      if width = 0 ∧ 1 < b then none else some (b.toNat, bs)
    else
      match readWithin width bs with
      | none => none
      | some (n, rest) => some (b.toNat - 128 + 128 * n, rest)

/-- The number at the front of a byte string, and what follows it. -/
def read (bs : Bytes) : Option (Nat × Bytes) := readWithin 10 bs

/-- How many numbers fit in `width + 1` bytes of which the last one holds a single bit. -/
def capacity : Nat → Nat
  | 0 => 2
  | width + 1 => 128 * capacity width

theorem readWithin_writeWithin (width n : Nat) (rest : Bytes) (h : n < capacity width) :
    readWithin (width + 1) (writeWithin (width + 1) n ++ rest) = some (n, rest) := by
  induction width generalizing n with
  | zero =>
    have hn : n < 2 := h
    have hb : UInt8.ofNat n < 128 := by
      rw [UInt8.lt_iff_toNat_lt, UInt8.toNat_ofNat']
      simp
      omega
    have hle : ¬ (1 < UInt8.ofNat n) := by
      rw [UInt8.lt_iff_toNat_lt, UInt8.toNat_ofNat']
      simp
      omega
    have hval : n % 256 = n := by omega
    simp [writeWithin, show n < 128 by omega, readWithin, hb, hle, hval]
  | succ width ih =>
    unfold writeWithin
    split
    · next hn =>
      have hb : UInt8.ofNat n < 128 := by
        rw [UInt8.lt_iff_toNat_lt, UInt8.toNat_ofNat']
        simp
        omega
      have hval : n % 256 = n := by omega
      simp [readWithin, hb, hval]
    · next hn =>
      have hb : ¬ (UInt8.ofNat (n % 128 + 128) < 128) := by
        rw [UInt8.lt_iff_toNat_lt, UInt8.toNat_ofNat']
        simp
        omega
      have hdiv : n / 128 < capacity width := by
        rw [capacity] at h
        omega
      have hval : (n % 128 + 128) % 256 = n % 128 + 128 := by omega
      simp only [List.cons_append, readWithin, hb, if_false, ih _ hdiv]
      simp [hval]
      omega

/-- Reading undoes writing, whatever follows. -/
theorem read_write (n : Nat) (rest : Bytes) (h : n < UInt64.size) :
    read (write n ++ rest) = some (n, rest) :=
  readWithin_writeWithin 9 n rest h

end MultiDevice.Varint
