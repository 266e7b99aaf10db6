import MultiDevice.Primitive.Curve25519
import MultiDevice.Primitive.Sha2

/-!
# Signatures on the Edwards curve

Points of `-x² + y² = 1 + d x² y²` over the field of order `2 ^ 255 - 19`, in extended coordinates.
An encoding is the second coordinate with the sign of the first in the top bit. Decoding takes the
second coordinate modulo the field order and lets a zero first coordinate carry either sign.

## Main definitions

* `Ed25519.Point`: points, with `add`, `multiply`, `encode` and `decode?`
* `Ed25519.verifyingKeyOf`, `Ed25519.sign`: the public key of a seed, and its signatures
* `Ed25519.verify`: the strict check of a signature, which also refuses points of small order
-/

namespace MultiDevice

/-- Why a signature was refused. -/
inductive SignatureFault where
  /-- The second half of the signature is not below the group order. -/
  | scalarOutOfRange
  /-- The signature does not belong to the message and the key. -/
  | equationFails
  deriving DecidableEq, Repr

namespace Ed25519

/-- The order of the group that the base point generates. -/
def groupOrder : Nat := 1 <<< 252 + 27742317777372353535851937790883648493

/-- The curve constant `d = -121665 / 121666`. -/
def curveConstant : Field25519 := (0 - 121665) * Field25519.inverse 121666

/-- A square root of minus one. -/
def rootOfMinusOne : Field25519 := Field25519.power 2 ((fieldOrder - 1) / 4)

/-- A point in extended coordinates: the first is `x / z`, the second `y / z`, and `t / z` is their
product. -/
structure Point where
  /-- Numerator of the first coordinate. -/
  x : Field25519
  /-- Numerator of the second coordinate. -/
  y : Field25519
  /-- Common denominator. -/
  z : Field25519
  /-- Numerator of the product of the coordinates. -/
  t : Field25519

namespace Point

/-- The neutral point. -/
def zero : Point := ⟨0, 1, 1, 0⟩

/-- The sum of two points, equal ones included. -/
def add (p q : Point) : Point :=
  let a := (p.y - p.x) * (q.y - q.x)
  let b := (p.y + p.x) * (q.y + q.x)
  let c := 2 * curveConstant * p.t * q.t
  let d := 2 * p.z * q.z
  let e := b - a
  let f := d - c
  let g := d + c
  let h := b + a
  ⟨e * f, g * h, f * g, e * h⟩

/-- The point with the opposite first coordinate. -/
def neg (p : Point) : Point := ⟨0 - p.x, p.y, p.z, 0 - p.t⟩

/-- A multiple of a point, by doubling and adding. -/
def multiply (n : Nat) (p : Point) : Point :=
  if n = 0 then zero
  else
    let rest := multiply (n / 2) (p.add p)
    if n % 2 = 1 then p.add rest else rest
termination_by n
decreasing_by omega

/-- Whether the point is the neutral one, in any of its coordinates. -/
def isZero (p : Point) : Bool := p.x == 0 && p.y == p.z

/-- Whether eight times the point is neutral. -/
def hasSmallOrder (p : Point) : Bool := (p.multiply 8).isZero

/-- The second coordinate with the lowest bit of the first one on top. -/
def encode (p : Point) : Block 32 :=
  let i := p.z.inverse
  let x := p.x * i
  let y := p.y * i
  Block.littleEndian 32 (y.val + x.val % 2 * 1 <<< 255)

/-- A square root of `u / v` whose least number is even, if there is one. -/
def root? (u v : Field25519) : Option Field25519 :=
  let r := u * (v * v * v) *
    Field25519.power (u * (v * v * v * v * v * v * v)) ((fieldOrder - 5) / 8)
  let even (a : Field25519) : Field25519 := if a.val % 2 = 0 then a else 0 - a
  if v * (r * r) = u then some (even r)
  else if v * (r * r) = 0 - u then some (even (r * rootOfMinusOne))
  else none

/-- The point that an encoding names, if its second coordinate is one of a point. -/
def decode? (b : Block 32) : Option Point :=
  let y := Field25519.ofBlock b
  match root? (y * y - 1) (curveConstant * (y * y) + 1) with
  | none => none
  | some x =>
    let x := if (Bytes.ofLittleEndian b.toList).testBit 255 then 0 - x else x
    some ⟨x, y, 1, x * y⟩

/-- The base point: its second coordinate is four fifths and its first one is even. -/
def base : Point := (decode? (Field25519.toBlock (4 * Field25519.inverse 5))).getD zero

end Point

/-- The number that a digest stands for as a scalar. -/
def scalarOf (digest : Block 64) : Nat := Bytes.ofLittleEndian digest.toList % groupOrder

/-- The secret scalar of a seed and the key of its nonces. -/
def expand (seed : Block 32) : Nat × Block 32 :=
  let halves := Block.split 32 32 (sha512 seed.toList)
  (Curve25519.clamp halves.1, halves.2)

/-- The public key of a seed. -/
def verifyingKeyOf (seed : Block 32) : Block 32 := (Point.base.multiply (expand seed).1).encode

/-- The signature of a message under a seed. -/
def sign (seed : Block 32) (message : Bytes) : Block 64 :=
  let (scalar, nonceKey) := expand seed
  let key := (Point.base.multiply scalar).encode
  let nonce := scalarOf (sha512 (nonceKey.toList ++ message))
  let commitment := (Point.base.multiply nonce).encode
  let challenge := scalarOf (sha512 (commitment.toList ++ key.toList ++ message))
  Block.append (m := 32) (n := 32) commitment
    (Block.littleEndian 32 ((nonce + challenge * scalar) % groupOrder))

/-- Whether 32 bytes name a point and so can be a public key. -/
def isVerifyingKey (key : Block 32) : Bool := (Point.decode? key).isSome

/-- The strict check: the scalar is reduced, neither the commitment nor the key has small order, and
the commitment is the one that the scalar, the challenge and the key determine, byte for byte. -/
def verify (key : Block 32) (message : Bytes) (signature : Block 64) :
    Except SignatureFault Unit :=
  let (commitment, response) := Block.split 32 32 signature
  let scalar := Bytes.ofLittleEndian response.toList
  if groupOrder ≤ scalar then .error .scalarOutOfRange
  else
    match Point.decode? commitment, Point.decode? key with
    | some r, some a =>
      if r.hasSmallOrder || a.hasSmallOrder then .error .equationFails
      else
        let challenge := scalarOf (sha512 (commitment.toList ++ key.toList ++ message))
        let expected := (Point.base.multiply scalar).add (a.neg.multiply challenge)
        if expected.encode = commitment then .ok () else .error .equationFails
    | _, _ => .error .equationFails

end Ed25519

end MultiDevice
