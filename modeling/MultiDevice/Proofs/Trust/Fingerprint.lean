import MultiDevice.Proofs.Bytes.Text
import MultiDevice.Proofs.Trust.Pinned

/-!
# The fingerprint of a message and the fingerprint on record

A message comes with the fingerprint of the identity in the session that read it, and a trust
decision is held for the identity on record. The two identities are compared as points, but a
fingerprint tells the bytes in which a point was given. So the fingerprint of a message is the one
on record unless the device had shown the same point in other bytes before.

## Main results

* `PublicKey.fingerprint_injective`: a fingerprint tells the bytes of a key
* `TrustTable.identity_see_shown_eq_iff`: when a key that is shown is the one on record
* `Scene.shown_of_identity`: a key on record was shown by its device
* `Scene.fingerprint_of_decrypted`: when the fingerprint of a message is the one on record
* `Scene.fingerprint_beside_record`: a trusted message with a fingerprint that is not on record
-/

namespace MultiDevice

/-! ## Fingerprints -/

/-- The groups of `k` bytes, one after the other. -/
theorem Bytes.flatMap_groups (bs : Bytes) (k n : Nat) :
    ((List.range n).flatMap fun i => (bs.drop (k * i)).take k) = bs.take (k * n) := by
  induction n with
  | zero => simp
  | succ n ih =>
    rw [List.range_succ, List.flatMap_append, ih, Nat.mul_succ, List.take_add]
    simp

/-- A fingerprint tells the bytes in which a key was given. -/
theorem PublicKey.fingerprint_injective : Function.Injective PublicKey.fingerprint := by
  intro a b h
  have hsplit : ∀ key : PublicKey, key.fingerprint.toList.splitOn ' ' = (List.range 8).map
      fun i => (Bytes.hex ((key.bytes.toList.drop (4 * i)).take 4)).toList := by
    intro key
    rw [fingerprint, String.toList_intercalate, List.map_map]
    refine List.splitOn_intercalate ' ' (fun l hl => ?_) (by simp)
    obtain ⟨i, -, rfl⟩ := List.mem_map.mp hl
    exact Bytes.blank_notMem_hex _
  have hbytes : ∀ key : PublicKey, key.bytes.toList =
      (List.range 8).flatMap fun i => (key.bytes.toList.drop (4 * i)).take 4 := by
    intro key
    rw [Bytes.flatMap_groups, List.take_of_length_le (by simp)]
  have hgroups : ∀ i ∈ List.range 8,
      (a.bytes.toList.drop (4 * i)).take 4 = (b.bytes.toList.drop (4 * i)).take 4 := by
    have hmap := (hsplit a).symm.trans
      ((congrArg (fun f => f.toList.splitOn ' ') h).trans (hsplit b))
    intro i hi
    exact Bytes.hex_injective (String.toList_inj.mp (List.map_inj_left.mp hmap i hi))
  have heq : a.bytes = b.bytes := by
    apply Block.ext
    rw [hbytes a, hbytes b]
    exact List.flatMap_congr hgroups
  cases a
  cases b
  exact congrArg PublicKey.mk heq

/-! ## Keys on record -/

namespace TrustTable

variable {device : DeviceAddress} {known : PublicKey}

/-- A key that is on record after an event was there before, or is shown by the event. -/
theorem identity_of_see {t : TrustTable} {event : TrustEvent}
    (h : (record (t.see event) device).identity = some known) :
    (record t device).identity = some known ∨ event = .shown device known := by
  rw [record_see] at h
  cases event with
  | decided d state => exact .inl h
  | shown d identity =>
    simp only [TrustEvent.keyAfter] at h
    split at h
    · next hd =>
      subst hd
      split at h
      · cases h
        exact .inr rfl
      · next k hk =>
        rw [hk]
        split at h
        · exact .inl h
        · cases h
          exact .inr rfl
    · exact .inl h

/-- A key that is on record after some events was there before, or was shown. -/
theorem identity_of_foldl_see {t : TrustTable} {events : List TrustEvent}
    (h : (record (events.foldl see t) device).identity = some known) :
    (record t device).identity = some known ∨ .shown device known ∈ events := by
  induction events generalizing t with
  | nil => exact .inl h
  | cons event events ih =>
    rcases ih h with h | hmem
    · rcases identity_of_see h with h | rfl
      · exact .inl h
      · exact .inr List.mem_cons_self
    · exact .inr (List.mem_cons_of_mem _ hmem)

/-- A key that is shown is on record afterwards, unless one of the same point in other bytes was on
record before. -/
theorem identity_see_shown_eq_iff {t : TrustTable} {shown : PublicKey} :
    (record (t.see (.shown device shown)) device).identity = some shown ↔
      ∀ k, (record t device).identity = some k → k.SamePoint shown → k = shown := by
  rw [record_see]
  simp only [TrustEvent.keyAfter, if_pos]
  cases (record t device).identity with
  | none =>
    refine iff_of_true rfl fun k hk => ?_
    cases hk
  | some known =>
    simp only [Option.some.injEq]
    split
    · next hsame =>
      constructor
      · rintro h k hk -
        exact hk.symm.trans (Option.some.inj h)
      · intro hall
        exact congrArg some (hall known rfl hsame)
    · next hother =>
      refine iff_of_true rfl fun k hk hsame => ?_
      subst hk
      exact absurd hsame hother

end TrustTable

/-! ## What a message says and what is on record -/

section Run

variable [CipherSuite]

/-- In whatever scene a run leads to, a key on record was shown by its device in the run. -/
theorem Scene.shown_of_identity {start : Scene} (hstart : Provisioned start)
    {requests : List Request} {device : DeviceAddress} {known : PublicKey}
    (h : ((start.run requests).trust.record device).identity = some known) :
    .shown device known ∈ Scene.events requests start := by
  rw [run_trust] at h
  rcases TrustTable.identity_of_foldl_see h with h | hmem
  · rw [show start.trust = ∅ from hstart.store.1] at h
    simp [TrustTable.record, TrustRecord.unknown] at h
  · exact hmem

/-- What is known of a message that was read: its sender showed one identity, that of the session
that is current afterwards, and message and trust table speak of it. -/
theorem Messenger.exists_shown_of_decrypted {sender : DeviceAddress} {envelope : Envelope}
    {s s' : Scene} {message : ClearText}
    (h : decrypt sender envelope s = (.decrypted message, s')) :
    ∃ (shown : PublicKey) (record : SessionRecord),
      (Request.decrypt sender envelope).events s = [.shown sender shown] ∧
      message.fingerprint = shown.fingerprint ∧
      message.trust = s'.messenger.trustState sender ∧
      s'.trust = s.trust.see (.shown sender shown) ∧
      s'.sessions[sender]? = some (SessionRecord.serialize record) ∧
      record.current.remoteIdentity = shown := by
  obtain ⟨hsender, transport, u, t, hkey, hu, hp⟩ := exists_of_decrypt_eq_decrypted h
  obtain ⟨hd, rfl⟩ := Prod.mk.inj (h.symm.trans (decrypt_of_unwrapFrom hsender hkey hu hp))
  have hmessage := Decryption.decrypted.inj hd
  obtain ⟨record, hsessions, hi⟩ := exists_kept_of_unwrapFrom hu
  refine ⟨u.identity, record, ?_, ?_, ?_, ?_, ?_, hi⟩
  · change shownByReading sender envelope s = _
    rw [shownByReading, if_pos hsender, hkey]
    simp only [hu]
  · rw [hmessage]
  · rw [hmessage]
  · rw [observeIdentity_trust, unwrapFrom_trust hu]
  · have hobserve : (endState (observeIdentity sender u.identity) t).sessions = t.sessions :=
      observeIdentity_leaves (fun _ _ => rfl) sender u.identity t
    rw [hobserve, hsessions]
    exact Std.ExtTreeMap.getElem?_insert_self

/-- **The fingerprint of a message is the one on record, unless the sender shows its point in other
bytes than before.** Whatever a messenger was asked to do since it was set up, a message that it
reads comes with the trust that stands afterwards, and with the fingerprint of the identity in the
session that read it, which is the current one afterwards. The key on record names the same point.
Its fingerprint is that of the message exactly if no key of the point in other bytes was on record
before, and what was on record before was shown by the sender earlier in the run. -/
theorem Scene.fingerprint_of_decrypted {start : Scene} (hstart : Provisioned start)
    (requests : List Request) {sender : DeviceAddress} {envelope : Envelope} {message : ClearText}
    {s' : Scene}
    (h : Messenger.decrypt sender envelope (start.run requests) = (.decrypted message, s')) :
    s'.messenger.trustState sender = message.trust ∧
      ∃ (shown known : PublicKey) (record : SessionRecord),
        (Request.decrypt sender envelope).events (start.run requests) = [.shown sender shown] ∧
        message.fingerprint = shown.fingerprint ∧
        s'.sessions[sender]? = some (SessionRecord.serialize record) ∧
        record.current.remoteIdentity = shown ∧
        s'.messenger.deviceFingerprint? sender = some known.fingerprint ∧
        known.SamePoint shown ∧
        (s'.messenger.deviceFingerprint? sender = some message.fingerprint ↔
          ∀ k, ((start.run requests).trust.record sender).identity = some k →
            k.SamePoint shown → k = shown) ∧
        ∀ k, ((start.run requests).trust.record sender).identity = some k →
          .shown sender k ∈ Scene.events requests start := by
  obtain ⟨shown, record, hevents, hfingerprint, htrust, hsee, hsessions, hi⟩ :=
    Messenger.exists_shown_of_decrypted h
  obtain ⟨known, hknown, hsame⟩ :=
    (start.run requests).trust.exists_key_of_see_shown sender shown
  have hon : s'.messenger.deviceFingerprint? sender = some known.fingerprint := by
    change ((s'.trust.record sender).identity).map PublicKey.fingerprint = _
    rw [hsee, hknown]
    rfl
  refine ⟨htrust.symm, shown, known, record, hevents, hfingerprint, hsessions, hi, hon, hsame, ?_,
    fun k hk => shown_of_identity hstart hk⟩
  -- equal fingerprints mean equal keys, so it matters which key is on record after one was shown
  rw [hon, hfingerprint, Option.some.injEq, PublicKey.fingerprint_injective.eq_iff,
    ← TrustTable.identity_see_shown_eq_iff, hknown, Option.some.injEq]

end Run

section FirstContact

attribute [local instance] CipherSuite.transparent

namespace Scene

/-- A first message comes with the fingerprint that is on record from then on. -/
theorem fingerprint_of_firstContact :
    ∃ start envelope message s', newcomer? ⟨"alice", 1⟩ = some start ∧
      start.firstContact? = some envelope ∧
      Messenger.decrypt ⟨"bob", 1⟩ envelope (start.run []) = (.decrypted message, s') ∧
      s'.messenger.trustState ⟨"bob", 1⟩ = message.trust ∧
      s'.messenger.deviceFingerprint? ⟨"bob", 1⟩ = some message.fingerprint := by
  have hread : (newcomer? ⟨"alice", 1⟩).any fun start => start.firstContact?.any fun envelope =>
      (start.trust.record ⟨"bob", 1⟩).identity = none ∧
        (Messenger.decrypt ⟨"bob", 1⟩ envelope start).1.result.toOption.isSome := by
    decide +kernel
  obtain ⟨start, hstart, hread⟩ := (Option.any_eq_true _ _).mp hread
  obtain ⟨envelope, henvelope, hread⟩ := (Option.any_eq_true _ _).mp hread
  obtain ⟨hnone, hmessage⟩ := of_decide_eq_true hread
  obtain ⟨message, hmessage⟩ := Option.isSome_iff_exists.mp hmessage
  have hdecrypted : Messenger.decrypt ⟨"bob", 1⟩ envelope (start.run []) =
      (.decrypted message, (Messenger.decrypt ⟨"bob", 1⟩ envelope start).2) :=
    Prod.ext (Decryption.eq_of_result_eq_some hmessage) rfl
  obtain ⟨htrust, shown, known, record, -, -, -, -, -, -, hiff, -⟩ :=
    fingerprint_of_decrypted (provisioned_of_newcomer hstart) [] hdecrypted
  have hrecord := hiff.mpr fun k hk => by cases hnone.symm.trans hk
  exact ⟨start, envelope, message, _, hstart, henvelope, hdecrypted, htrust, hrecord⟩

end Scene

end FirstContact

section OtherBytes

attribute [local instance] CipherSuite.pointwise

namespace Scene

/-- A first message of a device that gives its identity in the bytes of `identity`. -/
def greetAs (identity : PublicKey) (bundle : PreKeyBundle) (recipient : DeviceAddress) :
    Action Envelope := do
  let sender := (← get).messenger
  let key ← Action.draw ContentKey.generate
  let payload ← Action.draw (key.encrypt [1, 2, 3] sender.address)
  let session : Session ←
    Action.draw (KeyWrap.outbound sender.settings.keyWrap sender.store bundle)
  let session : Session := { session with
    ratchet := { session.ratchet with
      associatedData := Agreement.associatedData identity bundle.identity }
    pending := session.pending.map fun header => { header with identity } }
  match session.encrypt key.bytes.toList with
  | .error err _ => throw err
  | .ok message session =>
    return {
      sender := sender.address
      keys := [{ recipient, transport := { preKey := session.pending, message } }]
      payload
      hints := .standard }

/-- Two first messages to a device that was just set up, from one that gives its identity in two
ways. -/
def greetings? (start : Scene) : Option (Envelope × Envelope) :=
  match newcomer? ⟨"bob", 1⟩, start.messenger.store.signedPreKeys.current? with
  | some bob, .ok signed =>
    let identity := bob.messenger.store.identity.publicKey
    let bundle := (Messenger.bundle start.messenger.store signed).pick none
    let send : Action (Envelope × Envelope) := do
      let first ← greetAs identity bundle start.messenger.address
      let second ← greetAs identity.flipped bundle start.messenger.address
      return (first, second)
    answer? send bob
  | _, _ => none

/-- A message of a trusted device comes with a fingerprint that is not the one on record: the device
gave its identity in other bytes than before. -/
theorem fingerprint_beside_record :
    ∃ start first second message s', Provisioned start ∧
      start.greetings? = some (first, second) ∧
      Messenger.decrypt ⟨"bob", 1⟩ second
        (start.run [.decrypt ⟨"bob", 1⟩ first, .decideTrust ⟨"bob", 1⟩ .trusted]) =
          (.decrypted message, s') ∧
      message.trust = .trusted ∧
      s'.messenger.trustState ⟨"bob", 1⟩ = .trusted ∧
      s'.messenger.deviceFingerprint? ⟨"bob", 1⟩ ≠ some message.fingerprint := by
  have hread : (newcomer? ⟨"alice", 1⟩).any fun start => start.greetings?.any fun (first, second) =>
      let read := Messenger.decrypt ⟨"bob", 1⟩ second
        (start.run [.decrypt ⟨"bob", 1⟩ first, .decideTrust ⟨"bob", 1⟩ .trusted])
      read.1.result.toOption.any fun message =>
        message.trust = .trusted ∧ read.2.messenger.trustState ⟨"bob", 1⟩ = .trusted ∧
          read.2.messenger.deviceFingerprint? ⟨"bob", 1⟩ ≠ some message.fingerprint := by
    decide +kernel
  obtain ⟨start, hstart, hread⟩ := (Option.any_eq_true _ _).mp hread
  obtain ⟨⟨first, second⟩, hgreetings, hread⟩ := (Option.any_eq_true _ _).mp hread
  obtain ⟨message, hmessage, hread⟩ := (Option.any_eq_true _ _).mp hread
  obtain ⟨htrust, hstate, hne⟩ := of_decide_eq_true hread
  exact ⟨start, first, second, message, _, provisioned_of_newcomer hstart, hgreetings,
    Prod.ext (Decryption.eq_of_result_eq_some hmessage) rfl, htrust, hstate, hne⟩

end Scene

end OtherBytes

end MultiDevice
