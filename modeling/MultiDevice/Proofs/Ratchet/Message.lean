import MultiDevice.Proofs.Bytes.Block
import MultiDevice.Proofs.Ratchet.Reader

/-!
# Messages as bytes

A header is forty bytes, whatever they are, and a message is a header with any bytes behind it. So
headers are told apart by the data that messages vouch for, and a ciphertext is read under the
header that it was made for and under no other.

## Main results

* `MessageHeader.ofBytes_toBytes`, `MessageHeader.toBytes_ofBytes`: headers and their forty bytes
* `RatchetMessage.ofBytes_eq_ok_iff`: messages and their bytes
* `Ratchet.vouched_injective`: headers are told apart by what messages vouch for
* `Ratchet.eq_of_decrypt`: a ciphertext is read under its own header only
-/

namespace MultiDevice

namespace MessageHeader

/-- A header is read again from its written form. -/
theorem ofBytes_toBytes (h : MessageHeader) : ofBytes h.toBytes = h := by
  unfold ofBytes toBytes
  simp only [Block.split_append]
  exact congrArg₂ _ (Bytes.ofNat_ofBigEndian_bigEndian _) (Bytes.ofNat_ofBigEndian_bigEndian _)

/-- Forty bytes are written again from the header that they are. -/
theorem toBytes_ofBytes (b : Block 40) : (ofBytes b).toBytes = b := by
  have hnumber : ∀ number : Block 4,
      Block.bigEndian 4 (UInt32.ofNat (Bytes.ofBigEndian number.toList)).toNat = number :=
    fun number => Block.ext (Bytes.bigEndian_toNat_ofNat number.length_eq)
  unfold ofBytes toBytes
  dsimp only
  rw [hnumber, hnumber, Block.append_split]
  exact Block.append_split 32 8 b

end MessageHeader

namespace RatchetMessage

theorem eq_of_header_eq {m m' : RatchetMessage} (hh : m.header = m'.header)
    (hc : m.ciphertext = m'.ciphertext) : m = m' := by
  cases m
  cases m'
  cases hh
  cases hc
  rfl

/-- A byte string is read as a message exactly if it is what that message is written as. -/
theorem ofBytes_eq_ok_iff {bs : Bytes} {m : RatchetMessage} :
    ofBytes bs = .ok m ↔ m.toBytes = bs := by
  constructor
  · intro h
    unfold ofBytes Block.ofList? at h
    split at h
    next header hheader =>
      split at hheader
      next hlong =>
        cases hheader
        cases h
        rw [toBytes, MessageHeader.toBytes_ofBytes]
        exact List.take_append_drop 40 bs
      next => cases hheader
    next => cases h
  · rintro rfl
    have htake : m.toBytes.take 40 = m.header.toBytes.toList :=
      List.take_left' m.header.toBytes.length_eq
    have hdrop : m.toBytes.drop 40 = m.ciphertext := List.drop_left' m.header.toBytes.length_eq
    rw [ofBytes, htake, hdrop, Block.ofList?_toList]
    simp only [MessageHeader.ofBytes_toBytes]

/-- A byte string that is shorter than a header is no message. -/
theorem ofBytes_of_lt {bs : Bytes} (h : bs.length < 40) : ofBytes bs = .error .messageFormat := by
  have hshort : Block.ofList? 40 (bs.take 40) = none := by
    rw [Block.ofList?, dif_neg]
    rw [List.length_take]
    omega
  rw [ofBytes, hshort]

/-- Forty bytes and more are a message. -/
theorem exists_ofBytes_iff {bs : Bytes} : (∃ m, ofBytes bs = .ok m) ↔ 40 ≤ bs.length := by
  constructor
  · rintro ⟨m, h⟩
    rw [← ofBytes_eq_ok_iff.mp h, toBytes, List.length_append, m.header.toBytes.length_eq]
    exact Nat.le_add_right 40 _
  · intro h
    have hlong : (bs.take 40).length = 40 := List.length_take_of_le h
    have hheader : Block.ofList? 40 (bs.take 40) = some ⟨bs.take 40, hlong⟩ := dif_pos hlong
    exact ⟨⟨.ofBytes ⟨bs.take 40, hlong⟩, bs.drop 40⟩, by rw [ofBytes, hheader]⟩

end RatchetMessage

namespace Ratchet

/-- A header and the identities that are vouched for are known from their bytes. -/
theorem vouched_injective {ad ad' : Block 64} {h h' : MessageHeader}
    (heq : vouched ad h = vouched ad' h') : ad = ad' ∧ h = h' := by
  have hblocks : ad.append h.toBytes = ad'.append h'.toBytes := Block.ext heq
  obtain ⟨had, hbytes⟩ := Block.append_inj.mp hblocks
  refine ⟨had, ?_⟩
  rw [← h.ofBytes_toBytes, ← h'.ofBytes_toBytes, hbytes]

/-- A ciphertext is read only by a ratchet that vouches for the same identities as the one that made
it, and under the header that it was made for. -/
theorem eq_of_decrypt [CipherSuite] (hopens : OpensOnlySealed) {r r' x x' : Ratchet}
    {m m' : RatchetMessage} {p p' : Bytes} {e e' : Entropy} (hwrite : r.encrypt p = .ok m r')
    (hread : x.decrypt m' e = .ok (p', x') e') (hc : m'.ciphertext = m.ciphertext) :
    x.associatedData = r.associatedData ∧ m' = m := by
  obtain ⟨chain, key, -, hm⟩ := exists_of_encrypt hwrite
  obtain ⟨key', hd⟩ := exists_decipher_of_decrypt hread
  rw [hc, hm] at hd
  obtain ⟨had, hheader⟩ := vouched_injective (hopens _ _ _ _ _ _ _ _ (decrypt_of_decipher hd)).2
  exact ⟨had, RatchetMessage.eq_of_header_eq hheader hc⟩

end Ratchet

end MultiDevice
