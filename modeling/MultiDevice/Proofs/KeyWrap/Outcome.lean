import MultiDevice.KeyWrap
import MultiDevice.Proofs.Bytes.Block
import MultiDevice.Proofs.Session.Record

/-!
# What wrapping and unwrapping a content key do

A content key is wrapped by the current session of the record with the device, and unwrapped by the
session that becomes current. Nothing else of the store is touched, but for the one-time pre-key
that a new session used up.

## Main results

* `wrap_eq_ok_iff`: what a content key was wrapped with, and what is kept of it
* `exists_of_unwrap_eq_ok`: what a content key was unwrapped with, and what is kept of it
* `readTransport_identity`: the identity of a sender is that of the session that becomes current
-/

namespace MultiDevice

/-- Associated data tells both identities. -/
theorem Agreement.associatedData_inj {a b a' b' : PublicKey}
    (h : associatedData a b = associatedData a' b') : a = a' ∧ b = b' := by
  obtain ⟨ha, hb⟩ := Block.append_inj.mp h
  exact ⟨congrArg PublicKey.mk ha, congrArg PublicKey.mk hb⟩

namespace KeyWrap

variable [CipherSuite] {c : Settings} {s s' : Store} {device : DeviceAddress} {e e' : Entropy}

theorem send_eq_ok_iff {record : SessionRecord} {plaintext : Bytes} {t : KeyTransport} :
    send s device record plaintext = .ok (t, s') ↔
      ∃ session, record.current.encrypt plaintext = .ok t.message session ∧
        t.preKey = session.pending ∧
        s' = s.saveSession device { record with current := session } := by
  cases h : record.current.encrypt plaintext with
  | ok message session =>
    obtain ⟨preKey, message'⟩ := t
    simp only [send, h, Except.ok.injEq, Prod.mk.injEq, KeyTransport.mk.injEq,
      EStateM.Result.ok.injEq]
    constructor
    · rintro ⟨⟨rfl, rfl⟩, rfl⟩
      exact ⟨session, ⟨rfl, rfl⟩, rfl, rfl⟩
    · rintro ⟨_, ⟨rfl, rfl⟩, rfl, rfl⟩
      exact ⟨⟨rfl, rfl⟩, rfl⟩
  | error err session => simp [send, h]

/-- A content key is wrapped by the current session of the record with the device, and the record is
kept with that session after the message. -/
theorem wrap_eq_ok_iff {bundle : Option PreKeyBundle} {key : ContentKey} {t : KeyTransport} :
    wrap c s device bundle key e = .ok (t, s') e' ↔
      ∃ record session, recordFor c s device bundle e = .ok record e' ∧
        record.current.encrypt key.bytes.toList = .ok t.message session ∧
        t.preKey = session.pending ∧
        s' = s.saveSession device { record with current := session } := by
  rw [wrap, bind_eq_ok_iff]
  constructor
  · rintro ⟨record, e₁, hr, h⟩
    obtain ⟨hs, rfl⟩ := Draw.ofExcept_eq_ok_iff.mp h
    obtain ⟨session, hs⟩ := send_eq_ok_iff.mp hs
    exact ⟨record, session, hr, hs⟩
  · rintro ⟨record, session, hr, h⟩
    exact ⟨record, e', hr, Draw.ofExcept_eq_ok_iff.mpr ⟨send_eq_ok_iff.mpr ⟨session, h⟩, rfl⟩⟩

/-- The record of a device is the one kept, or a new one whose session was agreed with the owner of
the bundle. -/
theorem recordFor_eq_ok_iff {bundle : Option PreKeyBundle} {record : SessionRecord} :
    recordFor c s device bundle e = .ok record e' ↔
      (s.loadSession device = .ok (some record) ∧ e = e') ∨
      (s.loadSession device = .ok none ∧ ∃ b session, bundle = some b ∧
        outbound c s b e = .ok session e' ∧ record = .ofSession session) := by
  refine bind_eq_ok_iff.trans ?_
  constructor
  · rintro ⟨existing, e₁, hx, h⟩
    obtain ⟨hl, rfl⟩ := Draw.ofExcept_eq_ok_iff.mp hx
    cases existing with
    | some r => cases h; exact .inl ⟨hl, rfl⟩
    | none =>
      cases bundle with
      | none => cases h
      | some b =>
        obtain ⟨session, e₂, ho, h⟩ := bind_eq_ok_iff.mp h
        cases h
        exact .inr ⟨hl, b, session, rfl, ho, rfl⟩
  · rintro (⟨hl, rfl⟩ | ⟨hl, b, session, rfl, ho, rfl⟩)
    · exact ⟨some record, e, Draw.ofExcept_eq_ok_iff.mpr ⟨hl, rfl⟩, rfl⟩
    · refine ⟨none, e, Draw.ofExcept_eq_ok_iff.mpr ⟨hl, rfl⟩, ?_⟩
      exact bind_eq_ok_iff.mpr ⟨session, e', ho, rfl⟩

theorem outbound_advances (c : Settings) (s : Store) (bundle : PreKeyBundle) :
    Draw.Advances (outbound c s bundle) := by
  have hinitiate : Draw.Advances (Agreement.initiate c.info s.identity bundle) := by
    unfold Agreement.initiate
    cases bundle.verify with
    | error err => exact Draw.Advances.throw err
    | ok _ => exact (Draw.Advances.block 32).bind fun _ => Draw.Advances.pure _
  exact hinitiate.bind fun _ =>
    Draw.Advances.bind (Ratchet.initiate_advances _ _ _ _) fun _ => Draw.Advances.pure _

/-- Wrapping changes nothing about the source but how far it is used. -/
theorem wrap_advances (c : Settings) (s : Store) (device : DeviceAddress)
    (bundle : Option PreKeyBundle) (key : ContentKey) :
    Draw.Advances (wrap c s device bundle key) := by
  refine Draw.Advances.bind ?_ fun record => Draw.Advances.ofExcept _
  refine (Draw.Advances.ofExcept _).bind fun existing => ?_
  cases existing with
  | some record => exact Draw.Advances.pure record
  | none =>
    cases bundle with
    | some bundle => exact (outbound_advances c s bundle).bind fun _ => Draw.Advances.pure _
    | none => exact Draw.Advances.throw _

/-- A session is started from a bundle with a secret that is agreed on first. -/
theorem outbound_eq_ok_iff {bundle : PreKeyBundle} {session : Session} :
    outbound c s bundle e = .ok session e' ↔ ∃ agreed ratchet e₁,
      Agreement.initiate c.info s.identity bundle e = .ok agreed e₁ ∧
      Ratchet.initiate agreed.secret bundle.signedPreKey.key c.maxSkip
        (Agreement.associatedData s.identity.publicKey bundle.identity) e₁ = .ok ratchet e' ∧
      session = {
        ratchet
        remoteIdentity := bundle.identity
        baseKey := agreed.ephemeral
        pending := some {
          identity := s.identity.publicKey
          signedPreKeyId := bundle.signedPreKey.id
          oneTimePreKeyId := bundle.oneTimePreKey.map (·.id)
          baseKey := agreed.ephemeral } } := by
  rw [outbound, bind_eq_ok_iff]
  constructor
  · rintro ⟨agreed, e₁, hagreed, h⟩
    obtain ⟨ratchet, e₂, hratchet, h⟩ := bind_eq_ok_iff.mp h
    cases h
    exact ⟨agreed, ratchet, e₁, hagreed, hratchet, rfl⟩
  · rintro ⟨agreed, ratchet, e₁, hagreed, hratchet, rfl⟩
    exact ⟨agreed, e₁, hagreed, bind_eq_ok_iff.mpr ⟨ratchet, e', hratchet, rfl⟩⟩

theorem outbound_remoteIdentity {bundle : PreKeyBundle} {session : Session}
    (h : outbound c s bundle e = .ok session e') : session.remoteIdentity = bundle.identity := by
  obtain ⟨agreed, ratchet, e₁, -, -, rfl⟩ := outbound_eq_ok_iff.mp h
  rfl

theorem outbound_skipped {bundle : PreKeyBundle} {session : Session}
    (h : outbound c s bundle e = .ok session e') : session.ratchet.skipped = ∅ := by
  obtain ⟨agreed, ratchet, e₁, -, hr, rfl⟩ := outbound_eq_ok_iff.mp h
  obtain ⟨own, e₂, -, hr⟩ := bind_eq_ok_iff.mp hr
  cases hr
  rfl

/-- A session is built for a header if the pre-keys that the header names are there. -/
theorem inbound_eq_ok_iff {header : PreKeyHeader} {session : Session} :
    inbound c s header = .ok session ↔ ∃ signed oneTime,
      s.signedPreKeys.get? header.signedPreKeyId = some signed ∧
      namedOneTimePreKey s header.oneTimePreKeyId = .ok oneTime ∧
      session = {
        ratchet := Ratchet.respond
          (Agreement.respond c.info s.identity signed oneTime header.identity header.baseKey)
          signed.secret c.maxSkip
          (Agreement.associatedData header.identity s.identity.publicKey)
        remoteIdentity := header.identity
        baseKey := header.baseKey
        pending := none } := by
  unfold inbound
  cases s.signedPreKeys.get? header.signedPreKeyId with
  | none =>
    refine ⟨fun h => (nomatch h), ?_⟩
    rintro ⟨signed, oneTime, hsigned, -⟩
    cases hsigned
  | some signed =>
    cases hn : namedOneTimePreKey s header.oneTimePreKeyId with
    | error err =>
      refine ⟨fun h => (nomatch h), ?_⟩
      rintro ⟨_, oneTime, -, honeTime, -⟩
      cases honeTime
    | ok oneTime =>
      constructor
      · rintro ⟨⟩
        exact ⟨signed, oneTime, rfl, rfl, rfl⟩
      · rintro ⟨_, _, ⟨⟩, ⟨⟩, rfl⟩
        rfl

theorem inbound_skipped {header : PreKeyHeader} {session : Session}
    (h : inbound c s header = .ok session) : session.ratchet.skipped = ∅ := by
  obtain ⟨signed, oneTime, -, -, rfl⟩ := inbound_eq_ok_iff.mp h
  rfl

/-- What is built from a header depends on the keys that it names. -/
theorem inbound_congr {header : PreKeyHeader} (hi : s'.identity = s.identity)
    (hs : s'.signedPreKeys.get? header.signedPreKeyId = s.signedPreKeys.get? header.signedPreKeyId)
    (ho : s'.oneTimePreKeys = s.oneTimePreKeys) : inbound c s' header = inbound c s header := by
  unfold inbound namedOneTimePreKey
  rw [hi, hs, ho]

theorem isSome_of_inbound {header : PreKeyHeader} {session : Session}
    (h : inbound c s header = .ok session) :
    (s.signedPreKeys.get? header.signedPreKeyId).isSome = true := by
  obtain ⟨signed, oneTime, hsigned, -⟩ := inbound_eq_ok_iff.mp h
  exact Option.isSome_of_eq_some hsigned

/-- A session that was just built reaches as far as the limit. -/
theorem withinReach_of_inbound {header : PreKeyHeader} {session : Session}
    (h : inbound c s header = .ok session) {m : RatchetMessage}
    (hm : m.header.number.toNat ≤ c.maxSkip.toNat) : session.ratchet.WithinReach m := by
  obtain ⟨signed, oneTime, -, -, rfl⟩ := inbound_eq_ok_iff.mp h
  exact .inr (.inr ⟨rfl, nofun, hm⟩)

/-- The store after a one-time pre-key was used up, if one was. -/
def withoutConsumed (s : Store) (consumed : Option UInt32) : Store :=
  match consumed with
  | some id => (s.removeOneTimePreKey id).2
  | none => s

omit [CipherSuite] in
@[simp] theorem withoutConsumed_trust (s : Store) (consumed : Option UInt32) :
    (withoutConsumed s consumed).trust = s.trust := by
  cases consumed <;> rfl

omit [CipherSuite] in
@[simp] theorem withoutConsumed_sessions (s : Store) (consumed : Option UInt32) :
    (withoutConsumed s consumed).sessions = s.sessions := by
  cases consumed <;> rfl

/-- A content key is unwrapped by a reading of its transport; the record of the reading is kept, and
the one-time pre-key that it used up is not. -/
theorem exists_of_unwrap_eq_ok {t : KeyTransport} {u : Unwrapped}
    (h : unwrap c s device t e = .ok (u, s') e') :
    ∃ existing reading, s.loadSession device = .ok existing ∧
      readTransport c s device existing t e = .ok reading e' ∧
      ContentKey.ofBytes reading.plaintext = .ok u.key ∧ u.identity = reading.identity ∧
      u.newSession = reading.newSession ∧ u.consumed = reading.consumed t ∧
      s' = withoutConsumed (s.saveSession device reading.record) u.consumed := by
  obtain ⟨existing, e₁, hx, h⟩ := bind_eq_ok_iff.mp h
  obtain ⟨hl, rfl⟩ := Draw.ofExcept_eq_ok_iff.mp hx
  obtain ⟨reading, e₂, hr, h⟩ := bind_eq_ok_iff.mp h
  obtain ⟨key, e₃, hx, h⟩ := bind_eq_ok_iff.mp h
  obtain ⟨hk, rfl⟩ := Draw.ofExcept_eq_ok_iff.mp hx
  cases h
  exact ⟨existing, reading, hl, hr, hk, rfl, rfl, rfl, rfl⟩

/-- A content key is unwrapped when its transport is read. -/
theorem unwrap_of_readTransport {t : KeyTransport} {existing : Option SessionRecord}
    {reading : Reading} {key : ContentKey} (hl : s.loadSession device = .ok existing)
    (hr : readTransport c s device existing t e = .ok reading e')
    (hk : ContentKey.ofBytes reading.plaintext = .ok key) :
    unwrap c s device t e =
      .ok (⟨key, reading.identity, reading.newSession, reading.consumed t⟩,
        withoutConsumed (s.saveSession device reading.record) (reading.consumed t)) e' := by
  refine bind_eq_ok_iff.mpr ⟨existing, e, Draw.ofExcept_eq_ok_iff.mpr ⟨hl, rfl⟩, ?_⟩
  refine bind_eq_ok_iff.mpr ⟨reading, e', hr, ?_⟩
  exact bind_eq_ok_iff.mpr ⟨key, e', Draw.ofExcept_eq_ok_iff.mpr ⟨hk, rfl⟩, rfl⟩

theorem readTransport_advances (c : Settings) (s : Store) (device : DeviceAddress)
    (existing : Option SessionRecord) (t : KeyTransport) :
    Draw.Advances (readTransport c s device existing t) := by
  have known : ∀ (record : SessionRecord) (baseKey : Option PublicKey),
      Draw.Advances (readKnown record t.message baseKey) := fun record baseKey =>
    (record.decrypt_advances t.message baseKey).bind fun _ => Draw.Advances.pure _
  have new : ∀ header, Draw.Advances (readNew c s existing header t.message) := fun header =>
    (Draw.Advances.ofExcept _).bind fun session =>
      (session.decrypt_advances t.message).bind fun _ => Draw.Advances.pure _
  obtain ⟨preKey, message⟩ := t
  cases existing with
  | none =>
    cases preKey with
    | none => exact Draw.Advances.throw _
    | some header => exact new header
  | some record =>
    cases preKey with
    | none => exact known record none
    | some header =>
      unfold readTransport
      dsimp only
      split
      · exact known record _
      · exact new header

/-- Unwrapping changes nothing about the source but how far it is used. -/
theorem unwrap_advances (c : Settings) (s : Store) (device : DeviceAddress) (t : KeyTransport) :
    Draw.Advances (unwrap c s device t) :=
  (Draw.Advances.ofExcept _).bind fun existing =>
    (readTransport_advances c s device existing t).bind fun _ =>
      (Draw.Advances.ofExcept _).bind fun _ => Draw.Advances.pure _

/-- A message is read with the sessions there are as their record reads it. -/
theorem decrypt_of_readKnown {record : SessionRecord} {message : RatchetMessage}
    {baseKey : Option PublicKey} {reading : Reading}
    (h : readKnown record message baseKey e = .ok reading e') :
    record.decrypt message baseKey e =
        .ok (reading.plaintext, reading.identity, reading.record) e' ∧
      reading.newSession = false := by
  obtain ⟨⟨plaintext, identity, record'⟩, e₁, hd, h⟩ := bind_eq_ok_iff.mp h
  cases h
  exact ⟨hd, rfl⟩

/-- A message is read with a session built for it, which joins those there are. -/
theorem exists_of_readNew {existing : Option SessionRecord} {header : PreKeyHeader}
    {message : RatchetMessage} {reading : Reading}
    (h : readNew c s existing header message e = .ok reading e') :
    ∃ session session', inbound c s header = .ok session ∧
      session.decrypt message e = .ok (reading.plaintext, session') e' ∧
      reading = {
        plaintext := reading.plaintext
        identity := session'.remoteIdentity
        record := existing.elim (.ofSession session') fun record => record.promote session'
        newSession := true } := by
  obtain ⟨session, e₁, hx, h⟩ := bind_eq_ok_iff.mp h
  obtain ⟨hbuilt, rfl⟩ := Draw.ofExcept_eq_ok_iff.mp hx
  obtain ⟨⟨plaintext, session'⟩, e₂, hd, h⟩ := bind_eq_ok_iff.mp h
  cases h
  refine ⟨session, session', hbuilt, hd, ?_⟩
  cases existing with
  | none => rfl
  | some record => rfl

theorem readKnown_identity {record : SessionRecord} {message : RatchetMessage}
    {baseKey : Option PublicKey} {reading : Reading}
    (h : readKnown record message baseKey e = .ok reading e') :
    reading.identity = reading.record.current.remoteIdentity := by
  obtain ⟨-, -, -, -, -, -, hi⟩ :=
    SessionRecord.exists_of_decrypt_eq_ok (decrypt_of_readKnown h).1
  exact hi

theorem readNew_identity {existing : Option SessionRecord} {header : PreKeyHeader}
    {message : RatchetMessage} {reading : Reading}
    (h : readNew c s existing header message e = .ok reading e') :
    reading.identity = reading.record.current.remoteIdentity := by
  obtain ⟨session, session', -, -, hreading⟩ := exists_of_readNew h
  rw [hreading]
  cases existing with
  | none => rfl
  | some record => rfl

/-- A transport is read with the sessions there are if its header, if it has one, names one of
them. -/
theorem readTransport_of_agreedWith {record : SessionRecord} {t : KeyTransport} {session : Session}
    (hs : session ∈ record.sessions)
    (ha : ∀ header, t.preKey = some header →
      SessionRecord.agreedWith (some header.baseKey) session = true) :
    readTransport c s device (some record) t =
      readKnown record t.message (t.preKey.map (·.baseKey)) := by
  obtain ⟨preKey, message⟩ := t
  cases preKey with
  | none => rfl
  | some header =>
    have hhas : record.hasBaseKey header.baseKey = true :=
      List.any_eq_true.mpr ⟨session, hs, ha header rfl⟩
    simp only [readTransport]
    rw [if_pos hhas]
    rfl

/-- A transport is read with a session built for its header if that names none of those there
are. -/
theorem readTransport_of_not_agreedWith {existing : Option SessionRecord} {t : KeyTransport}
    {header : PreKeyHeader} (hpre : t.preKey = some header)
    (hno : ∀ session ∈ existing.elim [] SessionRecord.sessions,
      ¬ SessionRecord.agreedWith (some header.baseKey) session = true) :
    readTransport c s device existing t = readNew c s existing header t.message := by
  obtain ⟨preKey, message⟩ := t
  cases hpre
  cases existing with
  | none => rfl
  | some record =>
    have hhas : ¬ record.hasBaseKey header.baseKey = true := by
      intro hhas
      obtain ⟨session, hs, ha⟩ := List.any_eq_true.mp hhas
      exact hno session hs ha
    simp only [readTransport]
    rw [if_neg hhas]

/-- A transport is read with the sessions there are, one of which its header names if it has one, or
with one built for its header, which names none of them. -/
theorem exists_of_readTransport {existing : Option SessionRecord} {t : KeyTransport}
    {reading : Reading} (h : readTransport c s device existing t e = .ok reading e') :
    (∃ record, existing = some record ∧
      (∀ header, t.preKey = some header → record.hasBaseKey header.baseKey = true) ∧
      readKnown record t.message (t.preKey.map (·.baseKey)) e = .ok reading e') ∨
      ∃ header, t.preKey = some header ∧
        (∀ session ∈ existing.elim [] SessionRecord.sessions,
          ¬ SessionRecord.agreedWith (some header.baseKey) session = true) ∧
        readNew c s existing header t.message e = .ok reading e' := by
  obtain ⟨preKey, message⟩ := t
  cases existing with
  | none =>
    cases preKey with
    | none => cases h
    | some header => exact .inr ⟨header, rfl, nofun, h⟩
  | some record =>
    cases preKey with
    | none => exact .inl ⟨record, rfl, nofun, h⟩
    | some header =>
      simp only [readTransport] at h
      split at h
      · next hhas =>
        refine .inl ⟨record, rfl, fun header' hpre => ?_, h⟩
        cases hpre
        exact hhas
      · next hno =>
        exact .inr ⟨header, rfl, fun session hs ha =>
          hno (List.any_eq_true.mpr ⟨session, hs, ha⟩), h⟩

/-- The identity that a transport is read with is that of the session that becomes current. -/
theorem readTransport_identity {existing : Option SessionRecord} {t : KeyTransport}
    {reading : Reading} (h : readTransport c s device existing t e = .ok reading e') :
    reading.identity = reading.record.current.remoteIdentity := by
  rcases exists_of_readTransport h with ⟨record, -, -, hk⟩ | ⟨header, -, -, hn⟩
  · exact readKnown_identity hk
  · exact readNew_identity hn

end KeyWrap

end MultiDevice
