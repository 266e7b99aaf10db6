import MultiDevice.Primitive.Aes

/-!
# Authenticated encryption with AES in GCM-SIV mode

The tag is a polynomial hash of the associated data and the plaintext, encrypted; the key stream
starts from the tag, so a repeated nonce reveals no more than that a message was repeated.

## Main definitions

* `GcmSiv.polyval`: the polynomial hash
* `GcmSiv.encrypt`, `GcmSiv.decrypt?`: sealing a plaintext, and opening it when the tag is right
-/

namespace MultiDevice.GcmSiv

/-- The polynomial `x¹²⁸ + x¹²⁷ + x¹²⁶ + x¹²¹ + 1`, bit `i` being the coefficient of `xⁱ`. -/
def modulus : Nat := 1 <<< 128 + 1 <<< 127 + 1 <<< 126 + 1 <<< 121 + 1

/-- The product `a · b · x⁻¹²⁸` modulo `modulus`: one division by `x` for each bit of `b`. -/
def dot (a b : Nat) : Nat :=
  (List.range 128).foldl (fun acc i =>
    let acc := if b.testBit i then acc ^^^ a else acc
    (if acc.testBit 0 then acc ^^^ modulus else acc) >>> 1) 0

/-- The polynomial hash of a sequence of blocks under a key. -/
def polyval (key : Nat) (blocks : List Nat) : Nat :=
  blocks.foldl (fun acc x => dot (acc ^^^ x) key) 0

/-- The blocks of a byte string, the last one filled up with zeros, as numbers. -/
def blocksOf (bs : Bytes) : List Nat :=
  (List.range ((bs.length + 15) / 16)).map fun i =>
    Bytes.ofLittleEndian ((bs.drop (16 * i)).take 16)

/-- The keys that a nonce selects. -/
structure Keys where
  /-- The key of the polynomial hash. -/
  hashing : Nat
  /-- The round keys of the cipher. -/
  cipher : List Aes.Square

/-- The keys of one nonce: halves of encrypted counter blocks. -/
def deriveKeys (key : Block 32) (nonce : Block 12) : Keys :=
  let master := Aes.expandKey key
  let half (i : Nat) : Bytes :=
    (Aes.encrypt master (Block.append (m := 4) (Block.littleEndian 4 i) nonce)).toList.take 8
  { hashing := Bytes.ofLittleEndian (half 0 ++ half 1)
    cipher := Aes.expandKey (Block.ofPrefix 32 (half 2 ++ half 3 ++ half 4 ++ half 5)) }

/-- The tag of a plaintext: the polynomial hash of the data, the plaintext and both bit lengths,
with the nonce added and the top bit cleared, encrypted. -/
def tag (keys : Keys) (nonce : Block 12) (data plaintext : Bytes) : Block 16 :=
  let lengths :=
    Bytes.littleEndian 8 (8 * data.length) ++ Bytes.littleEndian 8 (8 * plaintext.length)
  let hash := polyval keys.hashing
    (blocksOf data ++ blocksOf plaintext ++ [Bytes.ofLittleEndian lengths])
  let mixed := (hash ^^^ Bytes.ofLittleEndian nonce.toList) % 1 <<< 127
  Aes.encrypt keys.cipher (Block.littleEndian 16 mixed)

/-- The bytes added to the text: encrypted blocks that start from the tag with its top bit set and
count up in the low 32 bits. -/
def keyStream (keys : Keys) (tag : Block 16) (length : Nat) : Bytes :=
  let start := Bytes.ofLittleEndian tag.toList ||| 1 <<< 127
  let low := start % 1 <<< 32
  ((List.range ((length + 15) / 16)).flatMap fun i =>
    (Aes.encrypt keys.cipher
      (Block.littleEndian 16 (start - low + (low + i) % 1 <<< 32))).toList).take length

/-- The encrypted plaintext followed by its tag. -/
def encrypt (key : Block 32) (nonce : Block 12) (data plaintext : Bytes) : Bytes :=
  let keys := deriveKeys key nonce
  let t := tag keys nonce data plaintext
  Bytes.xor plaintext (keyStream keys t plaintext.length) ++ t.toList

/-- The plaintext of a sealed text, if its tag is the one of the plaintext and the data. -/
def decrypt? (key : Block 32) (nonce : Block 12) (data sealedText : Bytes) : Option Bytes :=
  if sealedText.length < 16 then none
  else
    let keys := deriveKeys key nonce
    let body := sealedText.take (sealedText.length - 16)
    let given := Block.ofPrefix 16 (sealedText.drop (sealedText.length - 16))
    let plaintext := Bytes.xor body (keyStream keys given body.length)
    if tag keys nonce data plaintext = given then some plaintext else none

end MultiDevice.GcmSiv
