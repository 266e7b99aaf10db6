import MultiDevice.Bytes.Block

/-!
# The AES block cipher with 256-bit keys

A block is a square of sixteen bytes in column order. The substitution table is computed from its
definition: inversion among the polynomials of degree below eight over two elements, followed by
an affine map.

## Main definitions

* `Aes.substitute`: the substitution of one byte
* `Aes.expandKey`: the fifteen round keys of a key
* `Aes.encrypt`: the encryption of one block
-/

namespace MultiDevice.Aes

/-- The product of a polynomial by the indeterminate. -/
def double (a : UInt8) : UInt8 := if a < 0x80 then a <<< 1 else (a <<< 1) ^^^ 0x1b

/-- The product of two polynomials modulo `x⁸ + x⁴ + x³ + x + 1`. -/
def multiply (a b : UInt8) : UInt8 :=
  (List.range 8).foldr
    (fun i r => if b.toNat.testBit i then double r ^^^ a else double r) 0

/-- The inverse of a polynomial, and zero for zero: its power `254`. -/
def inverse (a : UInt8) : UInt8 :=
  (List.range 254).foldl (fun r _ => multiply r a) 1

/-- The bits turned left by `n` places. -/
def turn (a : UInt8) (n : UInt8) : UInt8 := (a <<< n) ||| (a >>> (8 - n))

/-- The substitution of each byte. -/
def substitution : Vector UInt8 256 :=
  Vector.ofFn fun i =>
    let b := inverse (UInt8.ofNat i)
    b ^^^ turn b 1 ^^^ turn b 2 ^^^ turn b 3 ^^^ turn b 4 ^^^ 0x63

/-- The substitution of one byte. -/
def substitute (a : UInt8) : UInt8 := substitution.get ⟨a.toNat, a.toNat_lt⟩

/-- Sixteen bytes in column order. -/
abbrev Square : Type := Vector UInt8 16

/-- Bytewise sum of two squares. -/
def addKey (s k : Square) : Square := Vector.zipWith (· ^^^ ·) s k

/-- Row `r` moves `r` columns to the left. -/
def shiftRows (s : Square) : Square :=
  Vector.ofFn fun i => s.get ⟨5 * i.val % 16, Nat.mod_lt _ (by decide)⟩

/-- The byte of a square `k` rows below byte `i` in the same column. -/
def below (s : Square) (i : Fin 16) (k : Nat) : UInt8 :=
  s.get ⟨i.val / 4 * 4 + (i.val + k) % 4, by omega⟩

/-- Every column is multiplied by the matrix whose rows turn `2 3 1 1`. -/
def mixColumns (s : Square) : Square :=
  Vector.ofFn fun i =>
    double (below s i 0) ^^^ double (below s i 1) ^^^ below s i 1 ^^^ below s i 2 ^^^ below s i 3

/-- The words of the key schedule from the `i`-th on, from the eight words before, the newest
first. -/
def scheduleFrom : Nat → Nat → UInt8 → List Bytes → List Bytes
  | 0, _, _, _ => []
  | count + 1, i, constant, words =>
    let newest := words.getD 0 []
    let changed :=
      if i % 8 = 0 then
        Bytes.xor ((newest.drop 1 ++ newest.take 1).map substitute) [constant, 0, 0, 0]
      else if i % 8 = 4 then newest.map substitute
      else newest
    let next := Bytes.xor (words.getD 7 []) changed
    next :: scheduleFrom count (i + 1) (if i % 8 = 0 then double constant else constant)
      (next :: words.take 7)

/-- Cuts a byte string into squares. -/
def squares (bs : Bytes) (count : Nat) : List Square :=
  (List.range count).map fun i => Vector.ofFn fun j => bs.getD (16 * i + j) 0

/-- The fifteen round keys: the key itself, then words that each depend on the one before and the
one eight before. -/
def expandKey (key : Block 32) : List Square :=
  let words := (List.range 8).map fun i => (key.toList.drop (4 * i)).take 4
  squares (key.toList ++ (scheduleFrom 52 8 1 words.reverse).flatten) 15

/-- The encryption of a square under round keys. The last round mixes no columns. -/
def rounds : List Square → Square → Square
  | [], s => s
  | [last], s => addKey (shiftRows (s.map substitute)) last
  | k :: ks, s => rounds ks (addKey (mixColumns (shiftRows (s.map substitute))) k)

/-- The encryption of one block under an expanded key. -/
def encrypt (keys : List Square) (block : Block 16) : Block 16 :=
  match keys with
  | [] => block
  | k :: ks =>
    let s : Square := Vector.ofFn fun i =>
      block.toList.get ⟨i.val, by rw [block.length_eq]; exact i.isLt⟩
    ⟨(rounds ks (addKey s k)).toList, by simp⟩

end MultiDevice.Aes
