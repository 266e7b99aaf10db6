import MultiDevice.Bytes.Block

/-!
# The SHA-2 hash functions

One compression function over words of `w` bits serves the whole family: its members differ in the
word size, the count of rounds and the amounts by which words are turned. All constants are
computed: they are the first `w` bits of the fractional parts of the square and cube roots of the
first primes.

## Main definitions

* `Sha2.Variant`: what distinguishes one member of the family
* `Sha2.digest`: the digest of a message under a variant
* `sha256`, `sha512`: the two members in use
-/

namespace MultiDevice

namespace Sha2

/-- The greatest `r` below `2 ^ bits` with `r ^ k ≤ n`, found one bit at a time from the top. -/
def integerRoot (k n bits : Nat) : Nat :=
  (List.range bits).foldr (fun i r => if Nat.pow (r + 1 <<< i) k ≤ n then r + 1 <<< i else r) 0

/-- The first `count` primes, looked for below `410`, where there are eighty. -/
def primes (count : Nat) : List Nat :=
  ((List.range 410).filter fun n =>
    2 ≤ n && (List.range n).all fun d => d < 2 || n % d != 0).take count

/-- The first `w` bits of the fractional part of the `k`-th root of `n`, for a root below `16`. -/
def rootFraction (w k n : Nat) : BitVec w :=
  BitVec.ofNat w (integerRoot k (n <<< (k * w)) (w + 4))

/-- Three amounts by which a word is turned or shifted, the results being added bitwise. -/
structure Turns where
  /-- Turned right by this amount. -/
  first : Nat
  /-- Turned right by this amount. -/
  second : Nat
  /-- Turned right by this amount in a round, shifted right in the message schedule. -/
  third : Nat

/-- The sum of three turned copies of a word. -/
def Turns.rotate {w : Nat} (t : Turns) (x : BitVec w) : BitVec w :=
  x.rotateRight t.first ^^^ x.rotateRight t.second ^^^ x.rotateRight t.third

/-- The sum of two turned copies and a shifted copy of a word. -/
def Turns.shift {w : Nat} (t : Turns) (x : BitVec w) : BitVec w :=
  x.rotateRight t.first ^^^ x.rotateRight t.second ^^^ (x >>> t.third)

/-- A member of the family whose words have `w` bits. -/
structure Variant (w : Nat) where
  /-- One constant for each round. -/
  constants : List (BitVec w)
  /-- The eight words that hashing starts from. -/
  start : List (BitVec w)
  /-- Turns of the first state word in a round. -/
  stateLow : Turns
  /-- Turns of the fifth state word in a round. -/
  stateHigh : Turns
  /-- Turns of the word fifteen places back in the schedule. -/
  scheduleLow : Turns
  /-- Turns of the word two places back in the schedule. -/
  scheduleHigh : Turns

variable {w : Nat}

/-- The variant with computed constants for `rounds` rounds. -/
def Variant.ofTurns (w rounds : Nat) (stateLow stateHigh scheduleLow scheduleHigh : Turns) :
    Variant w :=
  { constants := (primes rounds).map (rootFraction w 3)
    start := (primes 8).map (rootFraction w 2)
    stateLow, stateHigh, scheduleLow, scheduleHigh }

/-- The next `count` words of the message schedule that begins with the sixteen words given. -/
def schedule (v : Variant w) : Nat → List (BitVec w) → List (BitVec w)
  | 0, _ => []
  | _ + 1, [] => []
  | count + 1, x :: xs =>
    let next := v.scheduleHigh.shift (xs.getD 13 0) + xs.getD 8 0 +
      v.scheduleLow.shift (xs.getD 0 0) + x
    x :: schedule v count (xs ++ [next])

/-- The eight words of a hash in progress. -/
structure State (w : Nat) where
  /-- First word. -/
  a : BitVec w
  /-- Second word. -/
  b : BitVec w
  /-- Third word. -/
  c : BitVec w
  /-- Fourth word. -/
  d : BitVec w
  /-- Fifth word. -/
  e : BitVec w
  /-- Sixth word. -/
  f : BitVec w
  /-- Seventh word. -/
  g : BitVec w
  /-- Eighth word. -/
  h : BitVec w

/-- The state made of the first eight words of a list, zeros where there are fewer. -/
def State.ofList (ws : List (BitVec w)) : State w :=
  ⟨ws.getD 0 0, ws.getD 1 0, ws.getD 2 0, ws.getD 3 0, ws.getD 4 0, ws.getD 5 0, ws.getD 6 0,
    ws.getD 7 0⟩

/-- The eight words in order. -/
def State.toList (s : State w) : List (BitVec w) := [s.a, s.b, s.c, s.d, s.e, s.f, s.g, s.h]

/-- One round: every word moves one place, the first and the fifth take in a schedule word and a
round constant. -/
def round (v : Variant w) (s : State w) (word : BitVec w × BitVec w) : State w :=
  let choice := (s.e &&& s.f) ^^^ (~~~s.e &&& s.g)
  let majority := (s.a &&& s.b) ^^^ (s.a &&& s.c) ^^^ (s.b &&& s.c)
  let t := s.h + v.stateHigh.rotate s.e + choice + word.1 + word.2
  ⟨t + v.stateLow.rotate s.a + majority, s.a, s.b, s.c, s.d + t, s.e, s.f, s.g⟩

/-- Takes one message block of sixteen words into the state. -/
def compress (v : Variant w) (s : State w) (block : List (BitVec w)) : State w :=
  let words := schedule v v.constants.length block
  let r := (v.constants.zip words).foldl (round v) s
  State.ofList (List.zipWith (· + ·) s.toList r.toList)

/-- Cuts a list into pieces of `n`, the last one possibly shorter. -/
def pieces {α : Type} (n : Nat) (xs : List α) : List (List α) :=
  if _h : n = 0 ∨ xs = [] then [] else xs.take n :: pieces n (xs.drop n)
termination_by xs.length
decreasing_by
  have : xs.length ≠ 0 := fun hx => _h (Or.inr (List.length_eq_zero_iff.mp hx))
  simp only [List.length_drop]
  omega

/-- The message, a one bit, zeros up to whole blocks of sixteen words, and the bit length in the
last two words. -/
def pad (wordBytes : Nat) (message : Bytes) : Bytes :=
  let blockBytes := 16 * wordBytes
  let used := message.length + 1 + 2 * wordBytes
  message ++ 0x80 :: List.replicate ((blockBytes - used % blockBytes) % blockBytes) 0 ++
    Bytes.bigEndian (2 * wordBytes) (8 * message.length)

/-- The digest of a message, for words of `wordBytes` bytes. -/
def digest {wordBytes : Nat} (v : Variant (8 * wordBytes)) (message : Bytes) : Bytes :=
  let words := (pieces wordBytes (pad wordBytes message)).map fun bs =>
    BitVec.ofNat (8 * wordBytes) (Bytes.ofBigEndian bs)
  let final := (pieces 16 words).foldl (compress v) (State.ofList v.start)
  final.toList.flatMap fun x => Bytes.bigEndian wordBytes x.toNat

theorem length_digest {wordBytes : Nat} (v : Variant (8 * wordBytes)) (message : Bytes) :
    (digest v message).length = 8 * wordBytes := by
  simp [digest, State.toList]
  omega

/-- The member with words of 32 bits. -/
def short : Variant (8 * 4) :=
  .ofTurns _ 64 ⟨2, 13, 22⟩ ⟨6, 11, 25⟩ ⟨7, 18, 3⟩ ⟨17, 19, 10⟩

/-- The member with words of 64 bits. -/
def long : Variant (8 * 8) :=
  .ofTurns _ 80 ⟨28, 34, 39⟩ ⟨14, 18, 41⟩ ⟨1, 8, 7⟩ ⟨19, 61, 6⟩

end Sha2

/-- The 32-byte digest of a message under SHA-256. -/
def sha256 (message : Bytes) : Block 32 := ⟨Sha2.digest Sha2.short message, Sha2.length_digest _ _⟩

/-- The 64-byte digest of a message under SHA-512. -/
def sha512 (message : Bytes) : Block 64 := ⟨Sha2.digest Sha2.long message, Sha2.length_digest _ _⟩

end MultiDevice
