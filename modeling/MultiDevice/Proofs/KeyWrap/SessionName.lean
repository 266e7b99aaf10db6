import MultiDevice.Proofs.Bytes.Text
import MultiDevice.Proofs.CipherSuite
import MultiDevice.Proofs.Messenger.Request
import MultiDevice.Proofs.Ratchet.Tampering
import MultiDevice.Proofs.Session.Sending

/-!
# The name of a session at both ends

The header that a first message comes with is neither encrypted nor vouched for. Whoever changes it
on the way changes the secret that the recipient comes to, or the identities that the session
vouches for, and the message does not open. The bytes of the ephemeral key are the exception: the
agreement takes the point, the name of the session takes the bytes. So both ends give the session
one name exactly if the digest does not tell the ephemeral keys apart that they know it by, and a
key of the same point in other bytes is accepted like the one that was sent.

## Main results

* `KeyWrap.id_of_unwrap`: when both ends give a session one name
* `KeyWrap.unwrap_of_samePoint`, `KeyWrap.exists_unwrap_of_changed`: an ephemeral key in other bytes
  is accepted, so every header can be changed unnoticed
* `KeyWrap.ids_differ`: both ends of a session with different names
-/

namespace MultiDevice

section Names

variable [CipherSuite]

/-- Sessions that vouch for the same identities have one name if the digest does not tell their
ephemeral keys apart. -/
theorem Session.id_eq_iff {s s' : Session}
    (h : s.ratchet.associatedData = s'.ratchet.associatedData) :
    s.id = s'.id ↔
      CipherSuite.digest (s.ratchet.associatedData.toList ++ s.baseKey.bytes.toList) =
        CipherSuite.digest (s.ratchet.associatedData.toList ++ s'.baseKey.bytes.toList) := by
  unfold id
  rw [← h, Bytes.base64_inj (by simp only [Block.length_eq])]
  exact ⟨Block.ext, congrArg Block.toList⟩

/-- A ratchet reads what another one wrote only if both vouch for the same. -/
theorem Ratchet.associatedData_of_decrypt (hopens : OpensOnlySealed) {r r' x x' : Ratchet}
    {m : RatchetMessage} {p p' : Bytes} {e e' : Entropy} (hwrite : r.encrypt p = .ok m r')
    (hread : x.decrypt m e = .ok (p', x') e') :
    r'.associatedData = r.associatedData ∧ x'.associatedData = r.associatedData := by
  obtain ⟨chain, key, rfl, -⟩ := exists_of_encrypt hwrite
  exact ⟨rfl, (decrypt_sending hread).1.trans (eq_of_decrypt hopens hwrite hread rfl).1⟩

end Names

namespace KeyWrap

section Transit

variable [CipherSuite] {c : Settings} {s s' : Store} {device : DeviceAddress} {t : KeyTransport}
  {e e' : Entropy}

/-- The first content key to a device is the first message of a session that is kept, and comes with
the header of that session. -/
theorem exists_of_firstContact {bundle : PreKeyBundle} {key : ContentKey}
    (hnone : s.loadSession device = .ok none)
    (h : wrap c s device (some bundle) key e = .ok (t, s') e') :
    ∃ (header : PreKeyHeader) (ratchet ratchet' : Ratchet), t.preKey = some header ∧
      header.identity = s.identity.publicKey ∧
      ratchet.associatedData = Agreement.associatedData header.identity bundle.identity ∧
      ratchet.encrypt key.bytes.toList = .ok t.message ratchet' ∧
      s'.sessions[device]? = some (SessionRecord.serialize (.ofSession {
        ratchet := ratchet'
        remoteIdentity := bundle.identity
        baseKey := header.baseKey
        pending := some header })) := by
  obtain ⟨record, session', hrecord, hencrypt, hpre, rfl⟩ := wrap_eq_ok_iff.mp h
  rcases recordFor_eq_ok_iff.mp hrecord with ⟨hsome, -⟩ | ⟨-, _, session, hb, houtbound, rfl⟩
  · cases hnone.symm.trans hsome
  · cases hb
    obtain ⟨agreed, ratchet, e₁, -, hinitiate, rfl⟩ := outbound_eq_ok_iff.mp houtbound
    obtain ⟨own, e₂, -, hinitiate⟩ := bind_eq_ok_iff.mp hinitiate
    cases hinitiate
    obtain ⟨ratchet', hratchet, rfl⟩ := Session.encrypt_eq_ok_iff.mp hencrypt
    exact ⟨_, _, ratchet', hpre, rfl, rfl, hratchet, Std.ExtTreeMap.getElem?_insert_self⟩

/-- A new session is built for the header of a transport, which names none of the sessions there
are. -/
theorem exists_readNew_of_unwrap {u : Unwrapped} (h : unwrap c s device t e = .ok (u, s') e')
    (hnew : u.newSession = true) :
    ∃ existing reading header, s.loadSession device = .ok existing ∧ t.preKey = some header ∧
      (∀ session ∈ existing.elim [] SessionRecord.sessions,
        ¬ SessionRecord.agreedWith (some header.baseKey) session = true) ∧
      readNew c s existing header t.message e = .ok reading e' ∧
      ContentKey.ofBytes reading.plaintext = .ok u.key ∧
      u = ⟨u.key, reading.identity, reading.newSession, reading.consumed t⟩ ∧
      s' = withoutConsumed (s.saveSession device reading.record) u.consumed := by
  obtain ⟨existing, reading, hload, hread, hkey, hidentity, hkind, hconsumed, hs⟩ :=
    exists_of_unwrap_eq_ok h
  rcases exists_of_readTransport hread with ⟨record, -, -, hknown⟩ | ⟨header, hpre, hno, hread⟩
  · rw [hkind, (decrypt_of_readKnown hknown).2] at hnew
    cases hnew
  · refine ⟨existing, reading, header, hload, hpre, hno, hread, hkey, ?_, hs⟩
    rw [← hidentity, ← hkind, ← hconsumed]

/-- A session that is built for a content key reads its message and is kept. -/
theorem exists_of_unwrap_new {u : Unwrapped} (h : unwrap c s device t e = .ok (u, s') e')
    (hnew : u.newSession = true) :
    ∃ header session plaintext ratchet previous, t.preKey = some header ∧
      inbound c s header = .ok session ∧
      session.ratchet.decrypt t.message e = .ok (plaintext, ratchet) e' ∧
      s'.sessions[device]? = some (SessionRecord.serialize {
        current := { session with ratchet }
        previous }) := by
  obtain ⟨existing, reading, header, -, hpre, -, hread, -, -, rfl⟩ :=
    exists_readNew_of_unwrap h hnew
  obtain ⟨session, session', hbuilt, hdecrypt, hreading⟩ := exists_of_readNew hread
  obtain ⟨ratchet, hratchet, rfl⟩ := Session.decrypt_eq_ok_iff.mp hdecrypt
  obtain ⟨signed, oneTime, -, -, rfl⟩ := inbound_eq_ok_iff.mp hbuilt
  rw [withoutConsumed_sessions, hreading]
  refine ⟨header, _, reading.plaintext, ratchet, existing.elim [] fun record =>
    record.sessions.take SessionRecord.archiveLimit, hpre, hbuilt, hratchet, ?_⟩
  refine Std.ExtTreeMap.getElem?_insert_self.trans ?_
  cases existing with
  | none => rfl
  | some record => rfl

/-- **Both ends of a session have one name for it, if its ephemeral key arrives as it was sent.** A
first content key goes to a device, and its header arrives changed in whatever way. If a session is
built for it, both ends keep the session as the current one, each with the identity of the other,
which is the one that was sent. The two names are equal exactly if the digest does not tell the
ephemeral keys apart, and so if the key arrives in the bytes in which it was sent. -/
theorem id_of_unwrap (hopens : OpensOnlySealed) {c' : Settings} {r r' : Store}
    {sender : DeviceAddress} {bundle : PreKeyBundle} {key : ContentKey} {header' : PreKeyHeader}
    {u : Unwrapped} {e₁ e₁' : Entropy} (hnone : s.loadSession device = .ok none)
    (hwrap : wrap c s device (some bundle) key e = .ok (t, s') e')
    (hunwrap : unwrap c' r sender { t with preKey := some header' } e₁ = .ok (u, r') e₁')
    (hnew : u.newSession = true) :
    ∃ (header : PreKeyHeader) (a b : SessionRecord), t.preKey = some header ∧
      s'.sessions[device]? = some a.serialize ∧ r'.sessions[sender]? = some b.serialize ∧
      header'.identity = header.identity ∧
      a.current.remoteIdentity = r.identity.publicKey ∧
      b.current.remoteIdentity = s.identity.publicKey ∧
      (header'.baseKey = header.baseKey → b.current.id = a.current.id) ∧
      (b.current.id = a.current.id ↔
        CipherSuite.digest
            (b.current.ratchet.associatedData.toList ++ header'.baseKey.bytes.toList) =
          CipherSuite.digest
            (b.current.ratchet.associatedData.toList ++ header.baseKey.bytes.toList)) := by
  obtain ⟨header, x, x', hpre, hidentity, hx, hwrite, hsessions⟩ :=
    exists_of_firstContact hnone hwrap
  obtain ⟨_, session, plaintext, y', previous, hpre', hbuilt, hread, hsessions'⟩ :=
    exists_of_unwrap_new hunwrap hnew
  cases hpre'
  obtain ⟨signed, oneTime, -, -, rfl⟩ := inbound_eq_ok_iff.mp hbuilt
  obtain ⟨hx', hy'⟩ := Ratchet.associatedData_of_decrypt hopens hwrite hread
  have hy := (Ratchet.decrypt_sending hread).1.symm.trans hy'
  obtain ⟨hinitiator, hresponder⟩ := Agreement.associatedData_inj (hy.trans hx)
  have hid := hy'.trans hx'.symm
  refine ⟨header, _, _, hpre, hsessions, hsessions', hinitiator, hresponder.symm,
    hinitiator.trans hidentity, fun hbase => ?_, Session.id_eq_iff hid⟩
  exact (Session.id_eq_iff hid).mpr (by rw [hbase]; rfl)

/-- A session is built alike for an ephemeral key of the same point in other bytes. -/
theorem inbound_of_samePoint (hpoints : AgreesOnPoints) {header : PreKeyHeader} {k : PublicKey}
    {session : Session} (hk : k.SamePoint header.baseKey)
    (h : inbound c s header = .ok session) :
    inbound c s { header with baseKey := k } = .ok { session with baseKey := k } := by
  obtain ⟨signed, oneTime, hsigned, honeTime, rfl⟩ := inbound_eq_ok_iff.mp h
  refine inbound_eq_ok_iff.mpr ⟨signed, oneTime, hsigned, honeTime, ?_⟩
  have hagreed : ∀ secret : Secret, secret.agree k = secret.agree header.baseKey :=
    fun secret => hpoints secret k header.baseKey hk
  simp only [Agreement.respond, hagreed]

theorem readNew_of_samePoint (hpoints : AgreesOnPoints) {existing : Option SessionRecord}
    {header : PreKeyHeader} {k : PublicKey} {message : RatchetMessage} {reading : Reading}
    (hk : k.SamePoint header.baseKey)
    (h : readNew c s existing header message e = .ok reading e') :
    readNew c s existing { header with baseKey := k } message e = .ok { reading with
      record := { reading.record with
        current := { reading.record.current with baseKey := k } } } e' := by
  obtain ⟨session, session', hbuilt, hdecrypt, hreading⟩ := exists_of_readNew h
  obtain ⟨ratchet, hratchet, rfl⟩ := Session.decrypt_eq_ok_iff.mp hdecrypt
  have hread : ({ session with baseKey := k } : Session).decrypt message e =
      .ok (reading.plaintext, { session with ratchet, baseKey := k, pending := none }) e' :=
    Session.decrypt_eq_ok_iff.mpr ⟨ratchet, hratchet, rfl⟩
  have hinbound := inbound_of_samePoint hpoints hk hbuilt
  refine bind_eq_ok_iff.mpr ⟨_, e, Draw.ofExcept_eq_ok_iff.mpr ⟨hinbound, rfl⟩, ?_⟩
  refine bind_eq_ok_iff.mpr ⟨_, e', hread, ?_⟩
  rw [hreading]
  cases existing with
  | none => rfl
  | some record => rfl

/-- **An ephemeral key in other bytes is accepted.** When a session is built for a content key, the
same happens if its header gives the ephemeral key in other bytes: the same content key is obtained,
from a session that differs in those bytes only. -/
theorem unwrap_of_samePoint (hpoints : AgreesOnPoints) {header : PreKeyHeader} {k : PublicKey}
    {u : Unwrapped} (hpre : t.preKey = some header) (hk : k.SamePoint header.baseKey)
    (h : unwrap c s device t e = .ok (u, s') e') (hnew : u.newSession = true) :
    ∃ s'' record, unwrap c s device { t with preKey := some { header with baseKey := k } } e =
        .ok (u, s'') e' ∧
      s'.sessions[device]? = some (SessionRecord.serialize record) ∧
      s''.sessions[device]? = some (SessionRecord.serialize {
        record with current := { record.current with baseKey := k } }) := by
  obtain ⟨existing, reading, header', hload, hpre', hno, hread, hkey, hu, rfl⟩ :=
    exists_readNew_of_unwrap h hnew
  cases hpre.symm.trans hpre'
  have hread' := readNew_of_samePoint hpoints hk hread
  have hnot : readTransport c s device existing
      { t with preKey := some { header with baseKey := k } } =
        readNew c s existing { header with baseKey := k } t.message :=
    readTransport_of_not_agreedWith rfl fun session hs ha =>
      hno session hs (decide_eq_true ((of_decide_eq_true ha).trans hk))
  rw [← hnot] at hread'
  have hunwrap := unwrap_of_readTransport hload hread' hkey
  have hconsumed : reading.consumed t =
      reading.consumed { t with preKey := some { header with baseKey := k } } := by
    unfold Reading.consumed
    rw [hpre]
    rfl
  rw [hconsumed] at hu
  refine ⟨_, reading.record, hunwrap.trans (by rw [hu]; rfl), ?_, ?_⟩
  · rw [withoutConsumed_sessions]
    exact Std.ExtTreeMap.getElem?_insert_self
  · rw [withoutConsumed_sessions]
    exact Std.ExtTreeMap.getElem?_insert_self

/-- Whatever content key a session is built for, its header could have been changed on the way with
no difference to the recipient but the bytes by which it knows the ephemeral key. -/
theorem exists_unwrap_of_changed (hpoints : AgreesOnPoints) {u : Unwrapped}
    (h : unwrap c s device t e = .ok (u, s') e') (hnew : u.newSession = true) :
    ∃ header k s'' record, t.preKey = some header ∧ k ≠ header.baseKey ∧
      unwrap c s device { t with preKey := some { header with baseKey := k } } e =
        .ok (u, s'') e' ∧
      s'.sessions[device]? = some (SessionRecord.serialize record) ∧
      s''.sessions[device]? = some (SessionRecord.serialize {
        record with current := { record.current with baseKey := k } }) := by
  obtain ⟨existing, reading, header, -, hpre, -⟩ := exists_readNew_of_unwrap h hnew
  have hsame := header.baseKey.samePoint_flipped
  obtain ⟨s'', record, hunwrap, hs, hs'⟩ := unwrap_of_samePoint hpoints hpre hsame h hnew
  exact ⟨header, _, s'', record, hpre, header.baseKey.flipped_ne, hunwrap, hs, hs'⟩

end Transit

section Visit

attribute [local instance] CipherSuite.pointwise

/-- A device with a one-time pre-key and one without, its bundle, and the randomness left. -/
def neighbours? : Option (Store × Store × PreKeyBundle × Entropy) :=
  let both : Draw (Store × Store) := do
    return (← Store.provision 1 .epoch, ← Store.provision 0 .epoch)
  match both .counting with
  | .error _ _ => none
  | .ok (host, guest) e =>
    match host.signedPreKeys.current? with
    | .error _ => none
    | .ok signed => some (host, guest, (Messenger.bundle host signed).pick (some 1), e)

/-- A first content key goes to a device, and on the way the ephemeral key in its header is changed.
The answer is what arrives, and the sessions that the sender and the recipient keep. -/
def visit (change : PublicKey → PublicKey) (host guest : Store) (bundle : PreKeyBundle) :
    Draw (Unwrapped × Option SessionRecord × Option SessionRecord) := do
  let c := MultiDevice.Settings.standard.keyWrap
  let (t, guest) ← wrap c guest ⟨"alice", 1⟩ (some bundle) ⟨Block.zero 32⟩
  let arriving := { t with
    preKey := t.preKey.map fun header => { header with baseKey := change header.baseKey } }
  let (u, host) ← unwrap c host ⟨"bob", 1⟩ arriving
  let sent ← Draw.ofExcept (guest.loadSession ⟨"alice", 1⟩)
  let received ← Draw.ofExcept (host.loadSession ⟨"bob", 1⟩)
  return (u, sent, received)

/-- When a first content key arrives as it was sent, both ends have one name for its session. -/
theorem id_of_visit :
    ∃ host guest bundle e u a b e', neighbours? = some (host, guest, bundle, e) ∧
      visit (fun key => key) host guest bundle e = .ok (u, some a, some b) e' ∧
      u.newSession = true ∧ b.current.id = a.current.id := by
  have hvisit : neighbours?.any fun (host, guest, bundle, e) =>
      guest.loadSession ⟨"alice", 1⟩ = .ok none ∧
        (answer? (visit (fun key => key) host guest bundle) e).any fun (u, sent, received) =>
          u.newSession ∧ sent.isSome ∧ received.isSome := by
    decide +kernel
  obtain ⟨⟨host, guest, bundle, e⟩, hneighbours, hvisit⟩ := (Option.any_eq_true _ _).mp hvisit
  obtain ⟨hnone, hvisit⟩ := of_decide_eq_true hvisit
  obtain ⟨⟨u, sent, received⟩, hanswer, hvisit⟩ := (Option.any_eq_true _ _).mp hvisit
  obtain ⟨hnew, hsent, hreceived⟩ := of_decide_eq_true hvisit
  obtain ⟨a, rfl⟩ := Option.isSome_iff_exists.mp hsent
  obtain ⟨b, rfl⟩ := Option.isSome_iff_exists.mp hreceived
  obtain ⟨e', hok⟩ := exists_of_answer? hanswer
  refine ⟨host, guest, bundle, e, u, a, b, e', hneighbours, hok, hnew, ?_⟩
  obtain ⟨⟨t, guest'⟩, e₁, hwrap, h⟩ := bind_eq_ok_iff.mp hok
  obtain ⟨⟨u', host'⟩, e₂, hunwrap, h⟩ := bind_eq_ok_iff.mp h
  obtain ⟨_, e₃, hsent, h⟩ := bind_eq_ok_iff.mp h
  obtain ⟨_, e₄, hreceived, h⟩ := bind_eq_ok_iff.mp h
  cases h
  obtain ⟨_, ha, hsent⟩ := Store.exists_of_loadSession (Draw.ofExcept_eq_ok_iff.mp hsent).1
  obtain ⟨_, hb, hreceived⟩ :=
    Store.exists_of_loadSession (Draw.ofExcept_eq_ok_iff.mp hreceived).1
  obtain ⟨header, -, -, hpre, -⟩ := exists_of_firstContact hnone hwrap
  simp only [hpre, Option.map_some] at hunwrap
  obtain ⟨_, _, _, hpre', ha', hb', -, -, -, hid, -⟩ :=
    id_of_unwrap CipherSuite.pointwise_opensOnlySealed hnone hwrap hunwrap hnew
  cases hpre.symm.trans hpre'
  cases ha.symm.trans ha'
  cases hb.symm.trans hb'
  rw [SessionRecord.eq_of_deserialize_serialize hsent,
    SessionRecord.eq_of_deserialize_serialize hreceived]
  exact hid rfl

/-- The ephemeral key of a first content key arrives in other bytes, and both ends have different
names for its session. -/
theorem ids_differ :
    ∃ host guest bundle e u a b e', neighbours? = some (host, guest, bundle, e) ∧
      visit PublicKey.flipped host guest bundle e = .ok (u, some a, some b) e' ∧
      u.newSession = true ∧ u.key = ⟨Block.zero 32⟩ ∧ b.current.id ≠ a.current.id := by
  have hvisit : neighbours?.any fun (host, guest, bundle, e) =>
      (answer? (visit PublicKey.flipped host guest bundle) e).any fun (u, sent, received) =>
        sent.any fun a => received.any fun b =>
          u.newSession = true ∧ u.key = ⟨Block.zero 32⟩ ∧ b.current.id ≠ a.current.id := by
    decide +kernel
  obtain ⟨⟨host, guest, bundle, e⟩, hneighbours, hvisit⟩ := (Option.any_eq_true _ _).mp hvisit
  obtain ⟨⟨u, sent, received⟩, hanswer, hsent⟩ := (Option.any_eq_true _ _).mp hvisit
  obtain ⟨a, rfl, hreceived⟩ := (Option.any_eq_true _ _).mp hsent
  obtain ⟨b, rfl, hids⟩ := (Option.any_eq_true _ _).mp hreceived
  obtain ⟨hnew, hkey, hne⟩ := of_decide_eq_true hids
  obtain ⟨e', hok⟩ := exists_of_answer? hanswer
  exact ⟨host, guest, bundle, e, u, a, b, e', hneighbours, hok, hnew, hkey, hne⟩

end Visit

end KeyWrap

end MultiDevice
