import Mathlib.Logic.Function.Defs
import MultiDevice.Envelope.ContentKey
import MultiDevice.Proofs.Ratchet.Message

/-!
# What ciphertexts are bound to

A payload is bound to the address of its sender, and a ratchet message to its header. In both cases
the bytes that are authenticated are texts and numbers one after the other with nothing between
them. They are told apart all the same, because only one part of them has no fixed length.

## Main results

* `DeviceAddress.toBytes_injective`: addresses are told apart by their bytes
* `ContentKey.decrypt_eq_ite`: a payload opens for its sender and for nobody else
* `associatedData_unambiguous`: addresses, headers and messages are told apart by their bytes, and
  ciphertexts open only where they belong
-/

namespace MultiDevice

/-- The number takes the last four bytes, so the name is what stands before them. -/
theorem DeviceAddress.toBytes_injective : Function.Injective toBytes := by
  rintro ⟨account, device⟩ ⟨account', device'⟩ h
  obtain ⟨haccount, hdevice⟩ := List.append_inj' h (by simp only [Bytes.length_bigEndian])
  have hbytes : account.toUTF8 = account'.toUTF8 := ByteArray.ext (Array.toList_inj.mp haccount)
  have haccount : account = account' := String.toByteArray_inj.mp hbytes
  have hdevice : device = device' := Bytes.bigEndian_toNat_inj hdevice
  rw [haccount, hdevice]

section Opening

variable [CipherSuite]

/-- A payload opens to what was encrypted. -/
theorem ContentKey.decrypt_of_encrypt (hseals : OpensSealed) {key : ContentKey}
    {plaintext : Bytes} {sender : DeviceAddress} {e e' : Entropy} {payload : Payload}
    (h : key.encrypt plaintext sender e = .ok payload e') :
    key.decrypt payload sender = .ok plaintext := by
  obtain ⟨nonce, t, -, h⟩ := bind_eq_ok_iff.mp h
  cases h
  have hopen := hseals key.bytes nonce sender.toBytes plaintext
  unfold decrypt
  simp only [hopen]

/-- A payload opens for the address of its sender, and for no other one. -/
theorem ContentKey.decrypt_eq_ite (hseals : OpensSealed) (hopens : OpensOnlySealed)
    {key : ContentKey} {plaintext : Bytes} {sender : DeviceAddress} {e e' : Entropy}
    {payload : Payload} (h : key.encrypt plaintext sender e = .ok payload e')
    (address : DeviceAddress) :
    key.decrypt payload address =
      if sender = address then .ok plaintext else .error .payloadNotAuthentic := by
  split
  next heq =>
    rw [← heq]
    exact decrypt_of_encrypt hseals h
  next hne =>
    obtain ⟨nonce, t, -, h⟩ := bind_eq_ok_iff.mp h
    cases h
    unfold decrypt
    split
    next hopen =>
      exact absurd (DeviceAddress.toBytes_injective (hopens _ _ _ _ _ _ _ _ hopen).2).symm hne
    next => rfl

theorem Ratchet.decipher_of_ne (hopens : OpensOnlySealed) {ad : Block 64} {h h' : MessageHeader}
    (hne : h ≠ h') (key key' : Block 32) (plaintext : Bytes) :
    decipher key' (vouched ad h') (encipher key (vouched ad h) plaintext) =
      .error .messageNotAuthentic := by
  unfold decipher
  dsimp only
  split
  next hopen => exact absurd (vouched_injective (hopens _ _ _ _ _ _ _ _ hopen).2).2.symm hne
  next => rfl

/-- Addresses and headers are told apart by the bytes that are authenticated, and byte strings of at
least the length of a header are messages, one each. So with a cipher that opens only what was
sealed, and only with the data that it was sealed with, a payload opens for the address of its
sender alone, and what was encrypted under one header opens under no other one, whichever keys are
tried. -/
theorem associatedData_unambiguous :
    Function.Injective DeviceAddress.toBytes ∧
      (∀ bs : Bytes, ((∃ m, RatchetMessage.ofBytes bs = .ok m) ↔ 40 ≤ bs.length) ∧
        (bs.length < 40 → RatchetMessage.ofBytes bs = .error .messageFormat)) ∧
      (∀ (bs : Bytes) (m : RatchetMessage), RatchetMessage.ofBytes bs = .ok m ↔ m.toBytes = bs) ∧
      (∀ ad : Block 64, Function.Injective (Ratchet.vouched ad)) ∧
      (OpensSealed → OpensOnlySealed →
        (∀ (key : ContentKey) (plaintext : Bytes) (sender : DeviceAddress) (e e' : Entropy)
          (payload : Payload), key.encrypt plaintext sender e = .ok payload e' →
          ∀ address, key.decrypt payload address =
            if sender = address then .ok plaintext else .error .payloadNotAuthentic) ∧
        (∀ (ad : Block 64) (h h' : MessageHeader), h ≠ h' → ∀ (key key' : Block 32) plaintext,
          Ratchet.decipher key' (Ratchet.vouched ad h')
            (Ratchet.encipher key (Ratchet.vouched ad h) plaintext) =
              .error .messageNotAuthentic) ∧
        ∀ (r r' x x' : Ratchet) (m : RatchetMessage) (p p' : Bytes) (h : MessageHeader)
          (e e' : Entropy), r.encrypt p = .ok m r' → h ≠ m.header →
          x.decrypt { m with header := h } e ≠ .ok (p', x') e') := by
  refine ⟨DeviceAddress.toBytes_injective, fun bs => ⟨RatchetMessage.exists_ofBytes_iff,
    RatchetMessage.ofBytes_of_lt⟩, fun bs m => RatchetMessage.ofBytes_eq_ok_iff,
    fun ad h h' heq => (Ratchet.vouched_injective heq).2, fun hseals hopens => ⟨?_, ?_, ?_⟩⟩
  · intro key plaintext sender e e' payload h address
    exact ContentKey.decrypt_eq_ite hseals hopens h address
  · intro ad h h' hne key key' plaintext
    exact Ratchet.decipher_of_ne hopens hne key key' plaintext
  · intro r r' x x' m p p' h e e' hwrite hne hread
    obtain ⟨-, heq⟩ := Ratchet.eq_of_decrypt hopens hwrite hread rfl
    exact hne (congrArg RatchetMessage.header heq)

end Opening

section Example

attribute [local instance] CipherSuite.transparent

/-- A payload does not open for an address whose bytes are the first ones of those of its sender. -/
theorem associatedData_unambiguous_of_prefix :
    let sender : DeviceAddress := ⟨"ab", 1⟩
    let other : DeviceAddress := ⟨"a", 0x62000000⟩
    let key : ContentKey := ⟨.zero 32⟩
    other.toBytes <+: sender.toBytes ∧
      ∃ payload e', key.encrypt [1, 2, 3] sender .counting = .ok payload e' ∧
        key.decrypt payload sender = .ok [1, 2, 3] ∧
        key.decrypt payload other = .error .payloadNotAuthentic := by
  intro sender other key
  obtain ⟨-, -, -, -, hideal⟩ := associatedData_unambiguous
  obtain ⟨hpayload, -⟩ :=
    hideal CipherSuite.transparent_opensSealed CipherSuite.transparent_opensOnlySealed
  obtain ⟨payload, e', hencrypt⟩ :
      ∃ payload e', key.encrypt [1, 2, 3] sender .counting = .ok payload e' := ⟨_, _, rfl⟩
  have hopen := hpayload key _ sender _ _ payload hencrypt
  refine ⟨by decide +kernel, payload, e', hencrypt, ?_, ?_⟩
  · rw [hopen, if_pos rfl]
  · rw [hopen, if_neg (by decide)]

end Example

end MultiDevice
