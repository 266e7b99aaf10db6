import MultiDevice.Bytes.Block

/-!
# Key agreement on Curve25519

Arithmetic is modulo the prime `2 ^ 255 - 19`. A public key is the first coordinate of a point; the
top bit of its encoding is ignored and the value is taken modulo the prime, so several encodings
name one coordinate.

## Main definitions

* `Field25519`: the field
* `Curve25519.coordinate`: the field element that an encoding names
* `Curve25519.multiply`: a scalar times a coordinate, by the Montgomery ladder
* `Curve25519.publicOf`, `Curve25519.agree`: the public half of a secret, and the secret two
  parties share
-/

namespace MultiDevice

/-- The order of the field. -/
def fieldOrder : Nat := 1 <<< 255 - 19

instance : @NeZero Nat Zero.ofOfNat0 fieldOrder := ⟨by decide⟩

/-- Integers modulo `2 ^ 255 - 19`. -/
abbrev Field25519 : Type := Fin fieldOrder

namespace Field25519

/-- The `k`-th power by repeated squaring. -/
def power (a : Field25519) (k : Nat) : Field25519 :=
  if k = 0 then 1
  else
    let rest := power (a * a) (k / 2)
    if k % 2 = 1 then a * rest else rest
termination_by k
decreasing_by omega

/-- The multiplicative inverse, and zero for zero: the order less two is the exponent. -/
def inverse (a : Field25519) : Field25519 := power a (fieldOrder - 2)

/-- The element that 32 bytes name, the least significant first, without the top bit. -/
def ofBlock (b : Block 32) : Field25519 :=
  Fin.ofNat fieldOrder (Bytes.ofLittleEndian b.toList % 1 <<< 255)

/-- The least number of an element in 32 bytes, the least significant first. -/
def toBlock (a : Field25519) : Block 32 := Block.littleEndian 32 a.val

end Field25519

namespace Curve25519

/-- A coordinate as a quotient `x / z`; `z = 0` stands for the point at infinity. -/
structure Ratio where
  /-- Numerator. -/
  x : Field25519
  /-- Denominator. -/
  z : Field25519

/-- The coordinate of twice a point. -/
def Ratio.double (p : Ratio) : Ratio :=
  let s := (p.x + p.z) * (p.x + p.z)
  let d := (p.x - p.z) * (p.x - p.z)
  let e := s - d
  ⟨s * d, e * (s + 121665 * e)⟩

/-- The coordinate of a sum of two points whose difference has coordinate `u`. -/
def Ratio.add (u : Field25519) (p q : Ratio) : Ratio :=
  let da := (q.x - q.z) * (p.x + p.z)
  let cb := (q.x + q.z) * (p.x - p.z)
  ⟨(da + cb) * (da + cb), u * ((da - cb) * (da - cb))⟩

/-- One step of the ladder on `(n · P, (n + 1) · P)`: doubles `n` and adds the bit. -/
def ladderStep (u : Field25519) (bit : Bool) (p : Ratio × Ratio) : Ratio × Ratio :=
  let sum := p.1.add u p.2
  if bit then (sum, p.2.double) else (p.1.double, sum)

/-- The scalar times the point with coordinate `u`, as a coordinate. -/
def multiply (scalar : Nat) (u : Field25519) : Field25519 :=
  let final := (List.range 255).foldr
    (fun i p => ladderStep u (scalar.testBit i) p) (⟨1, 0⟩, ⟨u, 1⟩)
  final.1.x * final.1.z.inverse

/-- The scalar that a secret stands for: a multiple of eight with the bit 254 set and no higher. -/
def clamp (secret : Block 32) : Nat :=
  let n := Bytes.ofLittleEndian secret.toList
  n % 1 <<< 254 / 8 * 8 + 1 <<< 254

/-- The public half of a secret: the secret times the base point, whose coordinate is nine. -/
def publicOf (secret : Block 32) : Block 32 := (multiply (clamp secret) 9).toBlock

/-- What the owner of a secret shares with the owner of a public key. -/
def agree (secret publicKey : Block 32) : Block 32 :=
  (multiply (clamp secret) (Field25519.ofBlock publicKey)).toBlock

end Curve25519

end MultiDevice
