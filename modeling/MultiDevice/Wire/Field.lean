import MultiDevice.Wire.Varint

/-!
# Messages as sequences of fields

A stored message is a sequence of fields. A field has a number and a value, which is a number or a
byte string; a byte string may again be a message. Fields may come in any order: the last of
several numbers or byte strings counts, and several messages under one number are read as one.
Fields that a reader does not know are passed over, among them values of fixed width and groups of
fields, which may be nested to a limited depth.

## Main definitions

* `Field`, `Field.Value`: fields and their values
* `Wire.write`, `Wire.read`: the written form of a sequence of fields, and back
* `Wire.scalar`, `Wire.blob` and `Wire.scalar?`, `Wire.blob?`, `Wire.message?`: putting values into
  a sequence of fields, and looking them up in one
-/

namespace MultiDevice

/-- The value of a field, as far as its wire type tells. -/
inductive Field.Value where
  /-- A number of variable length. -/
  | number (n : Nat)
  /-- A byte string with its length in front. -/
  | bytes (bs : Bytes)
  /-- A value of fixed width or a group of fields, which no message of the library has. -/
  | foreign
  deriving DecidableEq, Repr

/-- A field of a message. -/
structure Field where
  /-- The number that tells which field it is. -/
  number : Nat
  /-- The value. -/
  value : Field.Value
  deriving DecidableEq, Repr

namespace Wire

/-! ## Writing -/

/-- The written form of a field: its number and wire type, then its value. -/
def writeField (f : Field) : Bytes :=
  match f.value with
  | .number n => Varint.write (8 * f.number) ++ Varint.write n
  | .bytes bs => Varint.write (8 * f.number + 2) ++ Varint.write bs.length ++ bs
  | .foreign => []

/-- The written form of a sequence of fields. -/
def write (fs : List Field) : Bytes := fs.flatMap writeField

/-- A number as a field, left out when it is zero. -/
def scalar (number : Nat) (n : UInt32) : List Field :=
  if n = 0 then [] else [⟨number, .number n.toNat⟩]

/-- A number that may be absent as a field, left out only then. -/
def optionalScalar (number : Nat) : Option UInt32 → List Field
  | none => []
  | some n => [⟨number, .number n.toNat⟩]

/-- A byte string as a field, left out when it is empty. -/
def blob (number : Nat) (bs : Bytes) : List Field :=
  if bs = [] then [] else [⟨number, .bytes bs⟩]

/-- A byte string that may be absent as a field, left out only then. -/
def optionalBlob (number : Nat) : Option Bytes → List Field
  | none => []
  | some bs => [⟨number, .bytes bs⟩]

/-- A message as a field. -/
def message (number : Nat) (fs : List Field) : Field := ⟨number, .bytes (write fs)⟩

/-- A message that may be absent as a field, left out only then. -/
def optionalMessage (number : Nat) : Option (List Field) → List Field
  | none => []
  | some fs => [message number fs]

/-! ## Reading -/

/-- How deep messages and groups may be nested. -/
def depthLimit : Nat := 100

/-- The first `n` bytes and the rest, if there are as many. -/
def splitAt? : Nat → Bytes → Option (Bytes × Bytes)
  | 0, bs => some ([], bs)
  | _ + 1, [] => none
  | n + 1, b :: bs =>
    match splitAt? n bs with
    | none => none
    | some (front, rest) => some (b :: front, rest)

/-- The field number and the wire type at the front of a byte string. Field numbers are positive
and, with the wire type, fit in 32 bits. -/
def readKey (bs : Bytes) : Option (Nat × Nat × Bytes) :=
  match Varint.read bs with
  | none => none
  | some (key, rest) =>
    if 8 ≤ key ∧ key < UInt32.size then some (key / 8, key % 8, rest) else none

/-- Passes over the fields of a group up to its end, which bears the number of the group. -/
def skipGroup (readValue : Nat → Nat → Bytes → Option (Field.Value × Bytes)) (number : Nat) :
    Nat → Bytes → Option Bytes
  | 0, _ => none
  | fuel + 1, bs =>
    match readKey bs with
    | none => none
    | some (inner, type, rest) =>
      if type = 4 then if inner = number then some rest else none
      else
        match readValue inner type rest with
        | none => none
        | some (_, rest) => skipGroup readValue number fuel rest

/-- The value of field `number` at the front of a byte string, by its wire type. -/
def readValue : Nat → Nat → Nat → Bytes → Option (Field.Value × Bytes)
  | 0, _, _, _ => none
  | depth + 1, number, type, bs =>
    match type with
    | 0 => (Varint.read bs).map fun (n, rest) => (.number n, rest)
    | 1 => (splitAt? 8 bs).map fun (_, rest) => (.foreign, rest)
    | 2 => (Varint.read bs).bind fun (n, rest) =>
        (splitAt? n rest).map fun (front, rest) => (.bytes front, rest)
    | 3 => (skipGroup (readValue depth) number bs.length bs).map fun rest => (.foreign, rest)
    | 5 => (splitAt? 4 bs).map fun (_, rest) => (.foreign, rest)
    | _ => none

/-- Reads at most `fuel` fields, up to the end of the byte string. -/
def readWithin (depth : Nat) : Nat → Bytes → Option (List Field)
  | _, [] => some []
  | 0, _ :: _ => none
  | fuel + 1, b :: bs =>
    match readKey (b :: bs) with
    | none => none
    | some (number, type, rest) =>
      match readValue depth number type rest with
      | none => none
      | some (value, rest) => (readWithin depth fuel rest).map (⟨number, value⟩ :: ·)

/-- The fields that a byte string is made of. Every field takes up a byte at least, so there are no
more fields than bytes. -/
def read (depth : Nat) (bs : Bytes) : Option (List Field) := readWithin depth bs.length bs

/-! ## Looking up -/

/-- All numbers under a field number; nothing if one of the fields is no number. -/
def numbers? (fs : List Field) (number : Nat) : Option (List Nat) :=
  (fs.filter (·.number == number)).mapM fun f =>
    match f.value with
    | .number n => some n
    | _ => none

/-- All byte strings under a field number; nothing if one of the fields is no byte string. -/
def byteStrings? (fs : List Field) (number : Nat) : Option (List Bytes) :=
  (fs.filter (·.number == number)).mapM fun f =>
    match f.value with
    | .bytes bs => some bs
    | _ => none

/-- The last number under a field number, if there is one; its low 32 bits count. -/
def optionalScalar? (fs : List Field) (number : Nat) : Option (Option UInt32) :=
  (numbers? fs number).map fun ns => ns.getLast?.map UInt32.ofNat

/-- The last number under a field number, zero if there is none. -/
def scalar? (fs : List Field) (number : Nat) : Option UInt32 :=
  (optionalScalar? fs number).map (·.getD 0)

/-- The last byte string under a field number, if there is one. -/
def optionalBlob? (fs : List Field) (number : Nat) : Option (Option Bytes) :=
  (byteStrings? fs number).map (·.getLast?)

/-- The last byte string under a field number, empty if there is none. -/
def blob? (fs : List Field) (number : Nat) : Option Bytes :=
  (optionalBlob? fs number).map (·.getD [])

/-- The fields of every message under a field number. -/
def messages? (depth : Nat) (fs : List Field) (number : Nat) : Option (List (List Field)) :=
  (byteStrings? fs number).bind fun bss => bss.mapM (read (depth - 1))

/-- The fields of all messages under a field number together, if there is a message. -/
def message? (depth : Nat) (fs : List Field) (number : Nat) : Option (Option (List Field)) :=
  (messages? depth fs number).map fun
    | [] => none
    | ms => some ms.flatten

end Wire

end MultiDevice
