import MultiDevice.Bytes.Text
import MultiDevice.CipherSuite
import MultiDevice.Error

/-!
# Agreement keys

A public key is kept as the bytes in which it was given. Several byte strings name the same point
of the curve, so keys are compared in two ways: `=` compares bytes, `SamePoint` compares points.

## Main definitions

* `Secret`: secret halves, with `Secret.publicKey` and `Secret.agree`
* `PublicKey`: public halves, with `PublicKey.SamePoint`
* `PublicKey.fingerprint`: the text that two people compare

## Main results

* `PublicKey.SamePoint.refl`, `.symm`, `.trans`: naming the same point is an equivalence
-/

namespace MultiDevice

/-- The public half of a key agreement pair. -/
structure PublicKey where
  /-- The bytes in which the key was given. -/
  bytes : Block 32
  deriving DecidableEq, Repr

namespace PublicKey

/-- The key that a byte string is, if it has the length of one. -/
def ofList? (bs : Bytes) : Option PublicKey := (Block.ofList? 32 bs).map .mk

/-- Whether two keys name the same point: the top bit is ignored and values count modulo the
field order. -/
def SamePoint (a b : PublicKey) : Prop :=
  Field25519.ofBlock a.bytes = Field25519.ofBlock b.bytes

instance (a b : PublicKey) : Decidable (SamePoint a b) :=
  inferInstanceAs (Decidable (_ = _))

theorem SamePoint.refl (a : PublicKey) : SamePoint a a := Eq.refl _

theorem SamePoint.symm {a b : PublicKey} (h : SamePoint a b) : SamePoint b a := Eq.symm h

theorem SamePoint.trans {a b c : PublicKey} (h : SamePoint a b) (h' : SamePoint b c) :
    SamePoint a c := Eq.trans h h'

/-- The hexadecimal digits of a key in eight groups of eight, the form that two people read out to
each other. -/
def fingerprint (key : PublicKey) : String :=
  " ".intercalate ((List.range 8).map fun i => Bytes.hex ((key.bytes.toList.drop (4 * i)).take 4))

/-- A short form for logs: the kind of key and its first eight bytes. -/
def logText (key : PublicKey) : String :=
  "X25519PublicKey(" ++ Bytes.hex (key.bytes.toList.take 8) ++ ")"

end PublicKey

/-- The secret half of a key agreement pair. -/
abbrev Secret : Type := Block 32

variable [CipherSuite]

/-- The public half that belongs to a secret. -/
def Secret.publicKey (secret : Secret) : PublicKey := ⟨CipherSuite.publicOf secret⟩

/-- What the owners of a secret and of a public key share. -/
def Secret.agree (secret : Secret) (key : PublicKey) : Block 32 :=
  CipherSuite.agree secret key.bytes

end MultiDevice
