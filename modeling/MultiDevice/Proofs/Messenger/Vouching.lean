import MultiDevice.Proofs.KeyWrap.KeyUse
import MultiDevice.Proofs.Messenger.Sessions

/-!
# Which identities the messages of a session vouch for

Every message of a session is authenticated together with two identities: that of the device that
keeps the session, and that of the remote device. What opens a content key is therefore a session of
a device with one of the two identities that the key was wrapped between.

## Main definitions

* `Session.Between`: the messages of a session vouch for an identity and for the remote one
* `Store.Vouching`: so do the messages of all sessions that are stored
* `KeyWrap.opener?`: the ratchet that opens a content key

## Main results

* `SessionProperty.vouching`: every request keeps this
* `KeyWrap.exists_opener_of_unwrap`: how a content key is opened
-/

namespace MultiDevice

/-- The messages of a session vouch for this identity and for that of the remote device: whichever
of the two started the session comes first. -/
def Session.Between (own : PublicKey) (s : Session) : Prop :=
  s.ratchet.associatedData = Agreement.associatedData own s.remoteIdentity ∨
    s.ratchet.associatedData = Agreement.associatedData s.remoteIdentity own

/-- Two pairs of identities that are authenticated alike share each of them. -/
theorem Agreement.eq_or_eq_of_associatedData {ad : Block 64} {a b a' b' : PublicKey}
    (h : ad = associatedData a b ∨ ad = associatedData b a)
    (h' : ad = associatedData a' b' ∨ ad = associatedData b' a') :
    a = a' ∨ a = b' := by
  rcases h with rfl | rfl <;> rcases h' with h' | h' <;>
    obtain ⟨rfl, rfl⟩ := associatedData_inj h'
  · exact .inl rfl
  · exact .inr rfl
  · exact .inr rfl
  · exact .inl rfl

variable [CipherSuite] {own : PublicKey} {m : RatchetMessage} {plaintext : Bytes} {e e' : Entropy}

/-- The messages of all sessions stored vouch for the identity of the device. -/
def Store.Vouching (s : Store) : Prop :=
  s.EachRecord fun record => ∀ session ∈ record.sessions, session.Between s.identity.publicKey

/-! ## What reading and sending keep -/

namespace Ratchet

variable {r r' : Ratchet}

theorem decrypt_associatedData (h : r.decrypt m e = .ok (plaintext, r') e') :
    r'.associatedData = r.associatedData := by
  unfold decrypt at h
  cases hs : r.skipped[(⟨m.header.ratchetKey.bytes, m.header.number⟩ : SkippedId)]? with
  | some key =>
    simp only [hs] at h
    obtain ⟨p, t, -, h⟩ := bind_eq_ok_iff.mp h
    cases h
    rfl
  | none =>
    simp only [hs] at h
    obtain ⟨r₁, e₁, hcatch, hread⟩ := bind_eq_ok_iff.mp h
    obtain ⟨r₂, -, -, next, hskip, -, -, rfl⟩ :=
      exists_of_readOnChain (Draw.ofExcept_eq_ok_iff.mp hread).1
    obtain ⟨receiving, skipped, rfl⟩ := exists_of_skip hskip
    have hcaught : r₁.associatedData = r.associatedData := catchUp_associatedData hcatch
    exact hcaught

/-- A message that is read is opened with a message key of the ratchet. -/
theorem exists_opens_of_decrypt (h : r.decrypt m e = .ok (plaintext, r') e') :
    ∃ key, r.opens? m e = some key ∧
      decipher key (vouched r.associatedData m.header) m.ciphertext = .ok plaintext := by
  rw [decrypt_eq] at h
  obtain ⟨l, e₁, hl, h⟩ := bind_eq_ok_iff.mp h
  obtain ⟨p, e₂, hx, h⟩ := bind_eq_ok_iff.mp h
  obtain ⟨hp, rfl⟩ := Draw.ofExcept_eq_ok_iff.mp hx
  cases h
  exact ⟨l.key, by simp only [opens?, hl, hp], hp⟩

end Ratchet

namespace Session.Between

variable {s s' : Session}

theorem encrypt (h : s.Between own) (he : s.encrypt plaintext = .ok m s') : s'.Between own := by
  obtain ⟨ratchet, hr, rfl⟩ := Session.encrypt_eq_ok_iff.mp he
  obtain ⟨chain, messageKey, rfl, -⟩ := Ratchet.exists_of_encrypt hr
  exact h

theorem decrypt (h : s.Between own) (hd : s.decrypt m e = .ok (plaintext, s') e') :
    s'.Between own := by
  obtain ⟨ratchet, hr, rfl⟩ := Session.decrypt_eq_ok_iff.mp hd
  have had : ratchet.associatedData = s.ratchet.associatedData := Ratchet.decrypt_associatedData hr
  exact h.imp had.trans had.trans

end Session.Between

namespace KeyWrap

variable {c : Settings} {s s' : Store} {device : DeviceAddress}

theorem between_of_outbound {bundle : PreKeyBundle} {session : Session}
    (h : outbound c s bundle e = .ok session e') : session.Between s.identity.publicKey := by
  obtain ⟨agreed, ratchet, e₁, -, hr, rfl⟩ := outbound_eq_ok_iff.mp h
  obtain ⟨own, e₂, -, hr⟩ := bind_eq_ok_iff.mp hr
  cases hr
  exact .inl rfl

theorem between_of_inbound {header : PreKeyHeader} {session : Session}
    (h : inbound c s header = .ok session) : session.Between s.identity.publicKey := by
  obtain ⟨signed, oneTime, -, -, rfl⟩ := inbound_eq_ok_iff.mp h
  exact .inr rfl

/-- The current session with a device is between the identity of the store and that of the device,
also when it is started now. -/
theorem between_of_recordFor (hs : s.Vouching) {bundle : Option PreKeyBundle}
    {record : SessionRecord} (h : recordFor c s device bundle e = .ok record e') :
    record.current.Between s.identity.publicKey := by
  rcases recordFor_eq_ok_iff.mp h with ⟨hl, -⟩ | ⟨-, b, session, -, ho, rfl⟩
  · exact hs.of_loadSession hl record.current List.mem_cons_self
  · exact between_of_outbound ho

/-- Reading a transport leaves sessions that vouch for the identity. -/
theorem between_of_readTransport {existing : Option SessionRecord} {t : KeyTransport}
    {reading : Reading} (h : ∀ record, existing = some record →
      ∀ session ∈ record.sessions, session.Between s.identity.publicKey)
    (hr : readTransport c s device existing t e = .ok reading e') :
    ∀ session ∈ reading.record.sessions, session.Between s.identity.publicKey := by
  rcases exists_of_readTransport hr with ⟨record, rfl, -, hk⟩ | ⟨header, -, -, hn⟩
  · obtain ⟨session, others, e₁, ho, -, hd, -⟩ :=
      SessionRecord.exists_of_decrypt_eq_ok (decrypt_of_readKnown hk).1
    have hall : ∀ x ∈ session :: others, x.Between s.identity.publicKey := fun x hx =>
      h record rfl x (ho.tried.mem_iff.mpr hx)
    refine List.forall_mem_cons.mpr ⟨(hall session List.mem_cons_self).decrypt hd, fun x hx => ?_⟩
    exact hall x (List.mem_cons_of_mem _ (ho.previous.subset hx))
  · obtain ⟨session, session', hi, hd, hreading⟩ := exists_of_readNew hn
    have hnew := (between_of_inbound hi).decrypt hd
    rw [hreading]
    cases existing with
    | none => exact List.forall_mem_singleton.mpr hnew
    | some record =>
      refine List.forall_mem_cons.mpr ⟨hnew, fun x hx => ?_⟩
      exact h record rfl x (List.mem_of_mem_take hx)

end KeyWrap

theorem KeyWrap.wrap_identity {c : Settings} {s s' : Store} {device : DeviceAddress}
    {bundle : Option PreKeyBundle} {key : ContentKey} {t : KeyTransport}
    (h : wrap c s device bundle key e = .ok (t, s') e') : s'.identity = s.identity := by
  obtain ⟨record, session, -, -, -, rfl⟩ := wrap_eq_ok_iff.mp h
  rfl

theorem KeyWrap.unwrap_identity {c : Settings} {s s' : Store} {device : DeviceAddress}
    {t : KeyTransport} {u : Unwrapped} (h : unwrap c s device t e = .ok (u, s') e') :
    s'.identity = s.identity := by
  obtain ⟨existing, reading, -, -, -, -, -, -, rfl⟩ := exists_of_unwrap_eq_ok h
  cases u.consumed <;> rfl

/-- Sessions vouch for the identity of the device that keeps them, whatever it is asked for. -/
theorem SessionProperty.vouching : SessionProperty Store.Vouching Store.Vouching where
  congr hs hi h := by
    rw [Store.Vouching, hi]
    exact Store.EachRecord.congr h hs
  congr_read hs hi h := by
    rw [Store.Vouching, hi]
    exact Store.EachRecord.congr h hs
  relax h := h
  empty hs := .empty hs
  forget device h := Store.EachRecord.deleteSession h device
  wrap h hw := by
    rw [Store.Vouching, KeyWrap.wrap_identity hw]
    refine Store.EachRecord.wrap h (fun b session ho => ?_) (fun hr he => ?_) hw
    · exact List.forall_mem_singleton.mpr (KeyWrap.between_of_outbound ho)
    · obtain ⟨hcurrent, hprevious⟩ := List.forall_mem_cons.mp hr
      exact List.forall_mem_cons.mpr ⟨hcurrent.encrypt he, hprevious⟩
  unwrap h hu := by
    rw [Store.Vouching, KeyWrap.unwrap_identity hu]
    exact Store.EachRecord.unwrap h (fun _ => id) (fun _ _ => KeyWrap.between_of_readTransport) hu

/-! ## Opening a content key -/

omit [CipherSuite] in
/-- A byte string that is a content key is that of the key. -/
theorem ContentKey.eq_of_ofBytes {bs : Bytes} {key : ContentKey} (h : ofBytes bs = .ok key) :
    bs = key.bytes.toList := by
  unfold ofBytes Block.ofList? at h
  split at h
  · next b hb =>
    cases h
    split at hb
    · cases hb
      rfl
    · cases hb
  · cases h

namespace KeyWrap

variable {c : Settings} {s s' : Store} {device : DeviceAddress} {t : KeyTransport}

/-- The ratchet that opens the message of a transport, and the source that it draws from. -/
def opener? (c : Settings) (s : Store) (device : DeviceAddress) (t : KeyTransport) (e : Entropy) :
    Option (Ratchet × Entropy) :=
  match started? c s device t with
  | some (_, session) => some (session.ratchet, e)
  | none =>
    match s.loadSession device with
    | .ok (some record) =>
      (SessionRecord.reader? t.message (t.preKey.map (·.baseKey)) record.sessions e).map
        fun (session, e) => (session.ratchet, e)
    | _ => none

/-- A content key is opened by the ratchet of a session that vouches for the identity of the
device. -/
theorem exists_opener_of_unwrap {u : Unwrapped} (hs : s.Vouching)
    (h : unwrap c s device t e = .ok (u, s') e') :
    ∃ r e₁ messageKey, opener? c s device t e = some (r, e₁) ∧
      r.opens? t.message e₁ = some messageKey ∧
      Ratchet.decipher messageKey (Ratchet.vouched r.associatedData t.message.header)
        t.message.ciphertext = .ok u.key.bytes.toList ∧
      ∃ remote, r.associatedData = Agreement.associatedData s.identity.publicKey remote ∨
        r.associatedData = Agreement.associatedData remote s.identity.publicKey := by
  obtain ⟨existing, reading, hl, hread, hkey, -⟩ := exists_of_unwrap_eq_ok h
  have hplaintext : reading.plaintext = u.key.bytes.toList := ContentKey.eq_of_ofBytes hkey
  rw [← hplaintext]
  rcases exists_of_readTransport hread with
    ⟨record, rfl, hhas, hknown⟩ | ⟨header, hpre, hno, hnew⟩
  · obtain ⟨session, others, e₁, ho, hreader, hd, -⟩ :=
      SessionRecord.exists_of_decrypt_eq_ok (decrypt_of_readKnown hknown).1
    obtain ⟨ratchet, hratchet, -⟩ := Session.decrypt_eq_ok_iff.mp hd
    obtain ⟨messageKey, hopens, hopen⟩ := Ratchet.exists_opens_of_decrypt hratchet
    have hbetween : session.Between s.identity.publicKey :=
      hs.of_loadSession hl session (ho.tried.mem_iff.mpr List.mem_cons_self)
    refine ⟨session.ratchet, e₁, messageKey, ?_, hopens, hopen, session.remoteIdentity, hbetween⟩
    simp only [opener?, started_of_hasBaseKey hl hhas, hl, hreader, Option.map_some]
  · obtain ⟨session, session', hbuilt, hd, -⟩ := exists_of_readNew hnew
    obtain ⟨signed, hcontact⟩ := built_of_inbound hbuilt
    obtain ⟨ratchet, hratchet, -⟩ := Session.decrypt_eq_ok_iff.mp hd
    obtain ⟨messageKey, hopens, hopen⟩ := Ratchet.exists_opens_of_decrypt hratchet
    refine ⟨session.ratchet, e, messageKey, ?_, hopens, hopen, session.remoteIdentity,
      between_of_inbound hbuilt⟩
    simp only [opener?, started_of_built hl hpre hno hcontact]

end KeyWrap

end MultiDevice
