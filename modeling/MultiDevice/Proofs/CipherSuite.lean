import MultiDevice.Entropy
import MultiDevice.Key.Public
import Mathlib.Tactic.ByContra

/-!
# Laws of cipher suites

What the protocol relies on: both sides of an agreement share the same, an encrypted text opens
under its own key and data and under no other, and a signature is accepted for the message that was
signed. The laws are satisfied together by a suite that hides nothing.

## Main definitions

* `AgreementCommutes`, `OpensSealed`, `OpensOnlySealed`, `OpensUnderOneKey`, `AgreesOnPoints`,
  `AcceptsOwnSignatures`: the laws
* `CipherSuite.transparent`, `CipherSuite.pointwise`, `Entropy.counting`: two suites that hide
  nothing, and a source that counts
* `PublicKey.flipped`: a key in other bytes

## Main results

* `CipherSuite.transparent_opensOnlySealed` and its siblings: the laws can be satisfied together
* `PublicKey.samePoint_flipped`, `PublicKey.flipped_ne`: one point has keys in different bytes
-/

namespace MultiDevice

section Laws

variable [CipherSuite]

/-- Two parties share the same, whoever computes it. -/
def AgreementCommutes : Prop := ∀ a b : Secret, a.agree b.publicKey = b.agree a.publicKey

/-- Encryption under a key is undone by decryption under the same key and data. -/
def OpensSealed : Prop :=
  ∀ (key : Block 32) (nonce : Block 12) (data plaintext : Bytes),
    CipherSuite.decrypt? key nonce data (CipherSuite.encrypt key nonce data plaintext) =
      some plaintext

/-- What was encrypted does not open under another key or with other data. -/
def OpensOnlySealed : Prop :=
  ∀ (key key' : Block 32) (nonce nonce' : Block 12) (data data' plaintext plaintext' : Bytes),
    CipherSuite.decrypt? key nonce data (CipherSuite.encrypt key' nonce' data' plaintext) =
      some plaintext' → key = key' ∧ data = data'

/-- A ciphertext opens under one key and for one data only, whoever made it. -/
def OpensUnderOneKey : Prop :=
  ∀ (key key' : Block 32) (nonce nonce' : Block 12) (data data' ciphertext : Bytes)
    (plaintext plaintext' : Bytes),
    CipherSuite.decrypt? key nonce data ciphertext = some plaintext →
      CipherSuite.decrypt? key' nonce' data' ciphertext = some plaintext' →
      key = key' ∧ data = data'

/-- A text opens under a key, with some nonce and data. -/
def CipherSuite.Opens (key : Block 32) (ciphertext : Bytes) : Prop :=
  ∃ nonce data plaintext, CipherSuite.decrypt? key nonce data ciphertext = some plaintext

theorem OpensUnderOneKey.eq (h : OpensUnderOneKey) {key key' : Block 32} {ciphertext : Bytes}
    (ho : CipherSuite.Opens key ciphertext) (ho' : CipherSuite.Opens key' ciphertext) :
    key = key' := by
  obtain ⟨nonce, data, plaintext, hopen⟩ := ho
  obtain ⟨nonce', data', plaintext', hopen'⟩ := ho'
  exact (h _ _ _ _ _ _ _ _ _ hopen hopen').1

/-- What two parties share depends on the point that a key names, not on the bytes in which it was
given. -/
def AgreesOnPoints : Prop :=
  ∀ (secret : Secret) (key key' : PublicKey), key.SamePoint key' →
    secret.agree key = secret.agree key'

/-- The owner of a signing key signs what others accept. -/
def AcceptsOwnSignatures : Prop :=
  ∀ (seed : Block 32) (message : Bytes),
    CipherSuite.verify (CipherSuite.verifyingKeyOf seed) message (CipherSuite.sign seed message) =
      .ok ()

end Laws

namespace CipherSuite

/-- What stands before a plaintext that hides nothing: the key, the nonce, the length of the data
and the data. -/
def heading (key : Block 32) (nonce : Block 12) (data : Bytes) : Bytes :=
  key.toList ++ nonce.toList ++ List.replicate data.length 1 ++ 0 :: data

/-- A suite that hides nothing. -/
@[reducible] def transparent : CipherSuite where
  publicOf secret := secret
  agree secret key := ⟨Bytes.xor secret.toList key.toList, by simp [Bytes.xor]⟩
  verifyingKeyOf seed := seed
  isVerifyingKey _ := true
  sign seed message := Block.append (m := 32) (n := 32) seed (Block.ofPrefix 32 message)
  verify key message signature :=
    if signature = Block.append (m := 32) (n := 32) key (Block.ofPrefix 32 message) then .ok ()
    else .error .equationFails
  digest message := Block.ofPrefix 32 message
  mac key message := Block.ofPrefix 32 (message ++ key)
  derive salt input _ n := Block.ofPrefix n (input ++ salt)
  encrypt key nonce data plaintext := heading key nonce data ++ plaintext
  decrypt? key nonce data ciphertext :=
    if (heading key nonce data).isPrefixOf ciphertext then
      some (ciphertext.drop (heading key nonce data).length)
    else none

theorem transparent_agreementCommutes : @AgreementCommutes transparent := by
  intro a b
  apply Block.ext
  change List.zipWith _ _ _ = List.zipWith _ _ _
  rw [List.zipWith_comm]
  congr 1
  funext x y
  exact UInt8.xor_comm y x

theorem transparent_opensSealed : @OpensSealed transparent := by
  intro key nonce data plaintext
  have hp := List.isPrefixOf_iff_prefix.mpr
    (List.prefix_append (heading key nonce data) plaintext)
  exact (if_pos hp).trans (congrArg some List.drop_left)

/-- A length in ones, closed by a zero, can be told from what follows. -/
theorem eq_of_unary_append {m n : Nat} {a b : Bytes}
    (h : List.replicate m 1 ++ 0 :: a = List.replicate n 1 ++ 0 :: b) : m = n ∧ a = b := by
  induction m generalizing n with
  | zero =>
    cases n with
    | zero => exact ⟨rfl, (List.cons.inj h).2⟩
    | succ n => exact absurd (List.cons.inj h).1 (by decide)
  | succ m ih =>
    cases n with
    | zero => exact absurd (List.cons.inj h).1 (by decide)
    | succ n =>
      obtain ⟨hm, ha⟩ := ih (List.cons.inj h).2
      exact ⟨congrArg Nat.succ hm, ha⟩

/-- A text that opens stands after its heading, and the heading tells the key and the data. -/
theorem transparent_opensOnlySealed : @OpensOnlySealed transparent := by
  intro key key' nonce nonce' data data' plaintext plaintext' h
  have hp : heading key nonce data <+: heading key' nonce' data' ++ plaintext := by
    by_contra hp
    have hnone := if_neg (fun h => hp (List.isPrefixOf_iff_prefix.mp h)) |>.symm.trans h
    cases hnone
  obtain ⟨rest, hrest⟩ := hp
  simp only [heading, List.append_assoc, List.cons_append] at hrest
  obtain ⟨hkey, hrest⟩ := List.append_inj hrest (by rw [key.length_eq, key'.length_eq])
  obtain ⟨-, hrest⟩ := List.append_inj hrest (by rw [nonce.length_eq, nonce'.length_eq])
  obtain ⟨hlength, hrest⟩ := eq_of_unary_append hrest
  obtain ⟨hdata, -⟩ := List.append_inj hrest hlength
  exact ⟨Block.ext hkey, hdata⟩

theorem transparent_opensUnderOneKey : @OpensUnderOneKey transparent := by
  intro key key' nonce nonce' data data' ciphertext plaintext plaintext' h h'
  have hp : heading key' nonce' data' <+: ciphertext := by
    by_contra hp
    have hnone := if_neg (fun h => hp (List.isPrefixOf_iff_prefix.mp h)) |>.symm.trans h'
    cases hnone
  obtain ⟨rest, rfl⟩ := hp
  exact transparent_opensOnlySealed _ _ _ _ _ _ _ _ h

theorem transparent_acceptsOwnSignatures : @AcceptsOwnSignatures transparent := by
  intro seed message
  exact if_pos rfl

/-- A suite that hides nothing either, in which keys are field elements: public halves are written
in one way only, and what is shared is a product. -/
@[reducible] def pointwise : CipherSuite :=
  { transparent with
    publicOf secret := (Field25519.ofBlock secret).toBlock
    agree secret key := (Field25519.ofBlock secret * Field25519.ofBlock key).toBlock
    digest message := Block.ofPrefix 32 message.reverse }

theorem standard_agreesOnPoints : @AgreesOnPoints standard := by
  intro secret key key' h
  exact congrArg (fun k => (Curve25519.multiply (Curve25519.clamp secret) k).toBlock) h

theorem pointwise_opensOnlySealed : @OpensOnlySealed pointwise := transparent_opensOnlySealed

end CipherSuite

/-! ## One point in other bytes -/

theorem Bytes.ofLittleEndian_append (a b : Bytes) :
    ofLittleEndian (a ++ b) = ofLittleEndian a + ofLittleEndian b <<< (8 * a.length) := by
  induction a with
  | nil => simp [ofLittleEndian]
  | cons x a ih =>
    have hshift : ofLittleEndian b <<< (8 * (a.length + 1)) =
        256 * ofLittleEndian b <<< (8 * a.length) := by
      rw [Nat.mul_succ, Nat.shiftLeft_add, Nat.shiftLeft_eq _ 8, Nat.mul_comm]
    rw [List.cons_append, ofLittleEndian, ih, ofLittleEndian, List.length_cons, hshift,
      Nat.mul_add, Nat.add_assoc]

namespace PublicKey

/-- The key in other bytes: the top bit, on which no point depends, is flipped. -/
def flipped (key : PublicKey) : PublicKey :=
  ⟨⟨key.bytes.toList.take 31 ++ (key.bytes.toList.drop 31).map (· ^^^ 128), by simp⟩⟩

theorem exists_bytes_eq_append (key : PublicKey) : ∃ front top,
    key.bytes.toList = front ++ [top] ∧ front.length = 31 ∧
      key.flipped.bytes.toList = front ++ [top ^^^ 128] := by
  obtain ⟨top, htop⟩ := List.length_eq_one_iff.mp
    (show (key.bytes.toList.drop 31).length = 1 by simp)
  refine ⟨key.bytes.toList.take 31, top, ?_, by simp, ?_⟩
  · rw [← htop, List.take_append_drop]
  · change _ ++ (key.bytes.toList.drop 31).map (· ^^^ 128) = _
    rw [htop]
    rfl

/-- A key in other bytes names the same point. -/
theorem samePoint_flipped (key : PublicKey) : key.flipped.SamePoint key := by
  obtain ⟨front, top, hkey, hfront, hflipped⟩ := key.exists_bytes_eq_append
  have htop : ∀ n < 256, (UInt8.ofNat n ^^^ 128).toNat % 128 = n % 128 := by decide +kernel
  have htop := htop top.toNat top.toNat_lt
  rw [UInt8.ofNat_toNat] at htop
  -- of the last byte, which stands 248 bits up, only the low seven bits count
  have hmod : ∀ b : UInt8, Bytes.ofLittleEndian (front ++ [b]) % 1 <<< 255 =
      (Bytes.ofLittleEndian front + (1 <<< 248) * (b.toNat % 128)) % 1 <<< 255 := by
    intro b
    have hlast : Bytes.ofLittleEndian [b] = b.toNat := by simp [Bytes.ofLittleEndian]
    have hshift : b.toNat <<< (8 * 31) = (1 <<< 248) * b.toNat := by
      rw [Nat.shiftLeft_eq, Nat.shiftLeft_eq, Nat.one_mul, Nat.mul_comm]
    have hsize : (1 <<< 255 : Nat) = (1 <<< 248) * 128 := by decide
    rw [Bytes.ofLittleEndian_append, hfront, hlast, hshift, hsize]
    conv => lhs; rw [← Nat.mod_add_div b.toNat 128, Nat.mul_add, ← Nat.mul_assoc,
      ← Nat.add_assoc, Nat.add_mul_mod_self_left]
  unfold SamePoint Field25519.ofBlock
  rw [hflipped, hkey, hmod, hmod, htop]

theorem flipped_ne (key : PublicKey) : key.flipped ≠ key := by
  intro h
  obtain ⟨front, top, hkey, -, hflipped⟩ := key.exists_bytes_eq_append
  rw [h, hkey] at hflipped
  have htop := (List.cons.inj (List.append_cancel_left hflipped)).1
  have hne : ∀ n < 256, UInt8.ofNat n ≠ UInt8.ofNat n ^^^ 128 := by decide +kernel
  have hne := hne top.toNat top.toNat_lt
  rw [UInt8.ofNat_toNat] at hne
  exact hne htop

end PublicKey

/-! ## Draws -/

/-- A source that counts its draws. -/
def Entropy.counting : Entropy :=
  ofSupply fun k n => Block.ofPrefix n [UInt8.ofNat (k + 1)]

end MultiDevice
