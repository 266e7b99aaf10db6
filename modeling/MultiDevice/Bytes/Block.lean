import MultiDevice.Bytes.Endian

/-!
# Byte strings of a known length

Keys, nonces, digests and signatures are byte strings whose length is part of their type.

## Main definitions

* `Block n`: the byte strings of length `n`
* `Block.ofList?`: the block that a byte string is, if it has the length
* `Block.append`, `Block.split`: blocks side by side, and apart again
-/

namespace MultiDevice

/-- A byte string of length `n`. -/
structure Block (n : Nat) where
  /-- The bytes in order. -/
  toList : Bytes
  length_eq : toList.length = n
  deriving DecidableEq

namespace Block

variable {m n : Nat}

@[ext] theorem ext {a b : Block n} (h : a.toList = b.toList) : a = b := by
  cases a; cases b; simp_all

@[simp] theorem length_toList (a : Block n) : a.toList.length = n := a.length_eq

instance : Repr (Block n) := ⟨fun a => reprPrec a.toList⟩

/-- The block that `bs` is, if it has length `n`. -/
def ofList? (n : Nat) (bs : Bytes) : Option (Block n) :=
  if h : bs.length = n then some ⟨bs, h⟩ else none

@[simp] theorem ofList?_toList (a : Block n) : ofList? n a.toList = some a := by
  simp [ofList?]

/-- The first `n` bytes of `bs`, filled up with zeros where `bs` is shorter. -/
def ofPrefix (n : Nat) (bs : Bytes) : Block n :=
  ⟨(bs ++ List.replicate n 0).take n, by simp⟩

/-- The block of zeros. -/
def zero (n : Nat) : Block n := ⟨List.replicate n 0, by simp⟩

instance : Inhabited (Block n) := ⟨zero n⟩

/-- Two blocks one after the other. -/
def append (a : Block m) (b : Block n) : Block (m + n) :=
  ⟨a.toList ++ b.toList, by simp⟩

@[simp] theorem toList_append (a : Block m) (b : Block n) :
    (a.append b).toList = a.toList ++ b.toList := rfl

/-- The first `m` bytes and the remaining `n`. -/
def split (m n : Nat) (a : Block (m + n)) : Block m × Block n :=
  (⟨a.toList.take m, by simp⟩, ⟨a.toList.drop m, by simp⟩)

@[simp] theorem split_append (a : Block m) (b : Block n) : split m n (a.append b) = (a, b) := by
  cases a; cases b; subst_vars; simp [split, append]

/-- The number written in `n` bytes, the most significant first. -/
def bigEndian (n k : Nat) : Block n := ⟨Bytes.bigEndian n k, by simp⟩

/-- The number written in `n` bytes, the least significant first. -/
def littleEndian (n k : Nat) : Block n := ⟨Bytes.littleEndian n k, by simp⟩

end Block

end MultiDevice
