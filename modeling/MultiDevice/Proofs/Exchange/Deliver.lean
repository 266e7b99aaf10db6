import MultiDevice.Proofs.Entries
import MultiDevice.Proofs.Exchange.Encrypt

/-!
# An envelope arrives

The key that an envelope carries is read by the end of the thread that it was sent in, and by no
other session of the device. If the device has no end there yet, it builds the one that belongs to
the header.

## Main definitions

* `Exchange.Arrives`: an envelope arrives with a key of a thread

## Main results

* `Exchange.Arrives.exists_of_readTransport`: a key is read by the end of its thread
* `Exchange.Arrives.inStep`: after an envelope was read the devices are in step
* `Exchange.Arrives.exists_unwrapFrom`: a key within reach is read
-/

namespace MultiDevice.Exchange

variable [CipherSuite] {e₀ e e' : Entropy} {c : Exchange} {thread : Threads} {w p : Party}
  {t : Thread} {x : Sent} {transport : KeyTransport} {key : ContentKey}

/-- An envelope of the other device arrives for the first time. Its key is a message of the thread
that `p` started. -/
structure Arrives (c : Exchange) (thread : Threads) (w : Party) (x : Sent)
    (transport : KeyTransport) (p : Party) (t : Thread) (key : ContentKey) : Prop where
  sent : x ∈ c.sent w.peer
  unread : x.envelope ∉ c.received w
  keyFor : x.envelope.keyFor (c.address w) = some transport
  started : thread p = some t
  carries : c.Carries w.peer x transport p t key

/-- A reading by the end that `w` has in the thread that `p` started. What the end becomes takes its
place among the sessions of the device. -/
structure ReadBy (e e' : Entropy) (thread : Threads) (w : Party) (message : RatchetMessage)
    (p : Party) (t : Thread) (reading : KeyWrap.Reading) : Prop where
  newSession : reading.newSession = true → p = w.peer
  decrypt : ∃ e₁, Entropy.Later e e₁ ∧ (t.session (p.role w)).decrypt message e₁ =
    .ok (reading.plaintext, reading.record.current) e'
  sessions : ∀ t' : Thread, t'.built = true → reading.record.current = t'.session (p.role w) →
    reading.record.sessions.Perm ((thread.set p t').sessionsOf w)

namespace Arrives

variable (ha : c.Arrives thread w x transport p t key)
include ha

theorem mem_sent : (key.bytes.toList, transport.message) ∈ t.talk.sent (p.role w).peer := by
  rw [Party.peer_role]
  exact ha.carries.sent

/-- The end of the thread did not read the message before. -/
theorem notMem_read (h : c.Logged thread) : transport.message ∉ t.talk.read (p.role w) := by
  intro hm
  obtain ⟨y, transport', hy, hreceived, hkey, hmessage⟩ := h.read w p t _ ha.started hm
  have heq := h.unique w.peer y x transport' transport hy ha.sent
    (by rw [Party.peer_peer]; exact hkey) (by rw [Party.peer_peer]; exact ha.keyFor) hmessage
  rw [heq] at hreceived
  exact ha.unread hreceived

/-- Who is written to in its own thread was answered before. -/
theorem built (hp : p = w) : t.built = true := by
  refine ha.carries.built ?_
  cases hpre : transport.preKey with
  | none => rfl
  | some header =>
    have hpeer := (ha.carries.header header hpre).1
    rw [hp] at hpeer
    exact absurd hpeer.symm (Party.peer_ne w)

/-- The other device keeps the sessions that it has. -/
theorem sessionsOf_peer {t' : Thread}
    (hsession : t'.session (p.role w).peer = t.session (p.role w).peer) (hbuilt : t'.built = true) :
    (thread.set p t').sessionsOf w.peer = thread.sessionsOf w.peer := by
  have hp : p = w.peer ∨ t.built = true := by
    by_cases hp : p = w
    · exact .inr (ha.built hp)
    · exact .inl (Party.eq_peer_of_ne hp)
  rw [Party.peer_role] at hsession
  exact Threads.sessionsOf_set_of_session_eq ha.started hsession ⟨fun _ => hp, fun _ => .inr hbuilt⟩

/-- What was read is accounted for when the message is entered in its thread. -/
theorem logged_pull (h : c.Logged thread) {t' : Thread} (hsent : t'.talk.sent = t.talk.sent)
    (hread : t'.talk.read = Function.update t.talk.read (p.role w)
      (transport.message :: t.talk.read (p.role w)))
    (hheader : t'.header = t.header) (hbuilt : t'.built = true) :
    (c.pull w x.envelope).Logged (thread.set p t') := by
  refine (h.pull w x.envelope).set ha.started hheader (fun v a hv => ?_) (fun _ => hbuilt)
    fun v m hm => ?_
  · rw [hsent]
    exact hv
  · rw [hread] at hm
    by_cases hv : v = w
    · subst hv
      rw [Function.update_self] at hm
      rcases List.mem_cons.mp hm with rfl | hm
      · exact .inr ⟨x, transport, ha.sent, mem_received_pull.mpr (.inl ⟨rfl, rfl⟩), ha.keyFor, rfl⟩
      · exact .inl hm
    · rw [Party.eq_peer_of_ne hv, ← Party.peer_role,
        Function.update_of_ne (Party.peer_ne _)] at hm
      rw [Party.eq_peer_of_ne hv, ← Party.peer_role]
      exact .inl hm

/-- The sessions of the other thread refuse the message. -/
theorem refuses (hopens : OpensOnlySealed) (h : c.Sound e₀ thread) {q : Party} {u : Thread}
    (hu : thread q = some u) (hq : q ≠ p) : (u.session (q.role w)).Refuses transport.message := by
  have hpeer := Party.eq_peer_of_ne hq
  subst hpeer
  refine (h.joins p t ha.started).sound.refuses hopens ha.mem_sent ?_
  rw [Thread.session_ratchet, (h.joins _ u hu).sound.associatedData_eq]
  exact (h.associatedData_ne ha.started hu).symm

/-- Only the end of the thread reads the message. -/
theorem eq_of_decrypt (hopens : OpensOnlySealed) (h : c.Sound e₀ thread) {s : Session}
    (hs : s ∈ thread.sessionsOf w) {a : Bytes × Session}
    (hd : s.decrypt transport.message e = .ok a e') :
    (p = w ∨ t.built = true) ∧ s = t.session (p.role w) := by
  obtain ⟨q, u, hu, hq, rfl⟩ := Threads.mem_sessionsOf_iff.mp hs
  by_cases hqp : q = p
  · subst hqp
    cases ha.started.symm.trans hu
    exact ⟨hq, rfl⟩
  · obtain ⟨err, t', herr⟩ := ha.refuses hopens h hu hqp e
    cases hd.symm.trans herr

/-- Only the end of the thread was agreed with its ephemeral key. -/
theorem eq_of_agreedWith (h : c.Sound e₀ thread) {s : Session} (hs : s ∈ thread.sessionsOf w)
    (hagreed : SessionRecord.agreedWith (some t.header.baseKey) s = true) :
    (p = w ∨ t.built = true) ∧ s = t.session (p.role w) := by
  obtain ⟨q, u, hu, hq, rfl⟩ := Threads.mem_sessionsOf_iff.mp hs
  by_cases hqp : q = p
  · subst hqp
    cases ha.started.symm.trans hu
    exact ⟨hq, rfl⟩
  · rw [SessionRecord.agreedWith, Thread.session_baseKey] at hagreed
    rw [Party.eq_peer_of_ne hqp] at hu
    exact absurd (of_decide_eq_true hagreed).symm (h.baseKey p t u ha.started hu)

/-- A message that the sessions of a record are tried on is read by the end of its thread. -/
theorem exists_of_readKnown (hopens : OpensOnlySealed) (h : c.Sound e₀ thread)
    {record : SessionRecord} (hperm : record.sessions.Perm (thread.sessionsOf w))
    {baseKey : Option PublicKey} {reading : KeyWrap.Reading}
    (hr : KeyWrap.readKnown record transport.message baseKey e = .ok reading e') :
    ReadBy e e' thread w transport.message p t reading := by
  obtain ⟨hread, hknown⟩ := KeyWrap.decrypt_of_readKnown hr
  obtain ⟨s, others, e₁, ho, hreader, hd, -⟩ := SessionRecord.exists_of_decrypt_eq_ok hread
  have hmem : s ∈ thread.sessionsOf w := by
    refine hperm.mem_iff.mp (ho.tried.mem_iff.mpr ?_)
    exact List.mem_cons_self
  obtain ⟨hp, rfl⟩ := ha.eq_of_decrypt hopens h hmem hd
  refine ⟨fun hnew => absurd (hnew.symm.trans hknown) nofun,
    ⟨e₁, SessionRecord.later_of_reader? hreader, hd⟩, fun t' hbuilt hcurrent => ?_⟩
  exact (ho.sessions (Threads.length_le_archiveLimit hperm)).trans
    (Threads.perm_sessionsOf_set ha.started hp (.inr hbuilt) (ho.tried.symm.trans hperm) hcurrent)

/-- The thread that a header belongs to was started by the sender. -/
theorem eq_peer_of_preKey {header : PreKeyHeader} (hpre : transport.preKey = some header) :
    p = w.peer ∧ header = t.header := ha.carries.header header hpre

/-- A device that did not build its end of the thread yet builds it for the message. -/
theorem exists_of_readNew (h : c.Sound e₀ thread) (hb : t.built = false)
    {existing : Option SessionRecord}
    (hperm : (existing.elim [] SessionRecord.sessions).Perm (thread.sessionsOf w))
    {header : PreKeyHeader} (hpre : transport.preKey = some header) {reading : KeyWrap.Reading}
    (hr : KeyWrap.readNew (c.messenger w).settings.keyWrap (c.store w) existing header
      transport.message e = .ok reading e') :
    ReadBy e e' thread w transport.message p t reading := by
  obtain ⟨hp, rfl⟩ := ha.eq_peer_of_preKey hpre
  obtain ⟨session, session', hinbound, hd, hreading⟩ := KeyWrap.exists_of_readNew hr
  have hbuilds := (h.joins p t ha.started).inbound hb
  subst hp
  rw [Party.peer_peer] at hbuilds
  cases hinbound.symm.trans (hbuilds (KeyWrap.isSome_of_inbound hinbound))
  have hnone : thread.sessionIn w w.peer = none :=
    Threads.sessionIn_eq_none ha.started (Party.peer_ne w) hb
  have hd' : (t.session (w.peer.role w)).decrypt transport.message e =
      .ok (reading.plaintext, session') e' := by
    rw [Party.role_of_peer]
    exact hd
  rw [hreading]
  cases existing with
  | none =>
    exact ⟨fun _ => rfl, ⟨e, .refl e, hd'⟩, fun t' hbuilt hcurrent =>
      Threads.perm_sessionsOf_insert hnone (.inr hbuilt) hperm hcurrent⟩
  | some record =>
    refine ⟨fun _ => rfl, ⟨e, .refl e, hd'⟩, fun t' hbuilt hcurrent => ?_⟩
    have hshort : record.sessions.length ≤ SessionRecord.archiveLimit :=
      Threads.length_le_archiveLimit hperm
    change (record.promote session').sessions.Perm _
    rw [SessionRecord.sessions_promote hshort]
    exact Threads.perm_sessionsOf_insert hnone (.inr hbuilt) hperm hcurrent

/-- The key of an envelope is read by the end of its thread, which is built if there is none. -/
theorem exists_of_readTransport (hopens : OpensOnlySealed) (h : c.Sound e₀ thread)
    {existing : Option SessionRecord}
    (hperm : (existing.elim [] SessionRecord.sessions).Perm (thread.sessionsOf w))
    {reading : KeyWrap.Reading}
    (hr : KeyWrap.readTransport (c.messenger w).settings.keyWrap (c.store w) (c.address w.peer)
      existing transport e = .ok reading e') :
    ReadBy e e' thread w transport.message p t reading := by
  rcases KeyWrap.exists_of_readTransport hr with
    ⟨record, rfl, -, hk⟩ | ⟨header, hpre, hno, hn⟩
  · exact ha.exists_of_readKnown hopens h hperm hk
  · obtain ⟨-, rfl⟩ := ha.eq_peer_of_preKey hpre
    refine ha.exists_of_readNew h (Bool.eq_false_iff.mpr fun hb => ?_) hperm hpre hn
    have hmem := Threads.session_mem_sessionsOf (w := w) ha.started (.inr hb)
    exact hno _ (hperm.mem_iff.mpr hmem) (t.agreedWith_session _)

end Arrives

/-! ## What a reading leaves -/

/-- What a reading makes of the scene of a device: the record is stored, the one-time pre-key used
up is gone, and nothing else changed that the other device relies on. -/
structure Stores (c : Exchange) (w : Party) (transport : KeyTransport) (reading : KeyWrap.Reading)
    (e : Entropy) (s : Scene) : Prop where
  address : s.messenger.address = c.address w
  settings : s.messenger.settings = (c.messenger w).settings
  store : s.messenger.store = KeyWrap.withoutConsumed
    ((c.store w).saveSession (c.address w.peer) reading.record) (reading.consumed transport)
  directory : s.directory = c.directory
  entropy : s.entropy = e

/-- Unwrapping a key that arrived reads its transport, and stores what the reading leaves. -/
theorem exists_of_unwrapFrom {u : KeyWrap.Unwrapped} {s : Scene}
    (hu : Messenger.unwrapFrom (c.address w.peer) transport (c.scene w) = .ok u s) :
    ∃ existing reading e', (c.store w).loadSession (c.address w.peer) = .ok existing ∧
      KeyWrap.readTransport (c.messenger w).settings.keyWrap (c.store w) (c.address w.peer) existing
        transport c.entropy = .ok reading e' ∧
      ContentKey.ofBytes reading.plaintext = .ok u.key ∧ u.identity = reading.identity ∧
      c.Stores w transport reading e' s := by
  obtain ⟨st, e', hunwrap, hs⟩ := Messenger.unwrapFrom_eq_ok_iff.mp hu
  obtain ⟨existing, reading, hload, hread, hkey, hidentity, -, hconsumed, hst⟩ :=
    KeyWrap.exists_of_unwrap_eq_ok hunwrap
  refine ⟨existing, reading, e', hload, hread, hkey, hidentity, ?_⟩
  rw [hconsumed] at hst
  split at hs
  · subst hs
    exact ⟨rfl, rfl, hst, rfl, rfl⟩
  · subst hs
    exact ⟨rfl, rfl, hst, rfl, rfl⟩

namespace Stores

variable {reading : KeyWrap.Reading} {s : Scene} (hs : c.Stores w transport reading e' s)
include hs

omit [CipherSuite] in
theorem identity : s.messenger.store.identity = (c.store w).identity := by
  rw [hs.store]
  cases reading.consumed transport <;> rfl

omit [CipherSuite] in
theorem signedPreKeys : s.messenger.store.signedPreKeys = (c.store w).signedPreKeys := by
  rw [hs.store]
  cases reading.consumed transport <;> rfl

omit [CipherSuite] in
theorem sessions : s.messenger.store.sessions =
    (c.store w).sessions.insert (c.address w.peer) reading.record.serialize := by
  rw [hs.store, KeyWrap.withoutConsumed_sessions]
  rfl

omit [CipherSuite] in
/-- Only the first message of a thread uses up a one-time pre-key. -/
theorem oneTimePreKeys (hold : reading.newSession = false) :
    s.messenger.store.oneTimePreKeys = (c.store w).oneTimePreKeys := by
  rw [hs.store, KeyWrap.Reading.consumed, hold]
  rfl

/-- Storing what a reading leaves is something a device may do once the thread was built. -/
theorem acts (h : c.Sound e₀ thread) (he : Entropy.Later c.entropy e')
    (hnew : reading.newSession = true → ¬ thread.Unbuilt w.peer) : c.Acts e₀ 0 thread w s where
  address := hs.address
  settings := hs.settings
  identity := hs.identity
  sessions d bytes hd := by
    rw [hs.sessions] at hd
    rcases Entries.of_insert hd with ⟨hdevice, -⟩ | ⟨-, hd⟩
    · exact hdevice
    · exact h.sessions w d bytes hd
  entropy := by
    rw [hs.entropy]
    exact he
  ring := by
    rw [hs.signedPreKeys, hs.entropy]
    exact (h.ring w).mono he.drawn
  later := by
    rw [hs.signedPreKeys]
    exact .refl _
  nextId := by
    rw [hs.signedPreKeys]
    exact Nat.le_refl _
  pool hu := by
    cases hn : reading.newSession with
    | true => exact absurd hu (hnew hn)
    | false => exact hs.oneTimePreKeys hn
  bundles d b hb := by
    rw [hs.directory] at hb
    exact .inl ⟨b, hb, .refl b⟩

omit [CipherSuite] in
/-- What a reading leaves does not depend on what was drawn before. -/
theorem of_entropy (e : Entropy) :
    (c.after w { c.scene w with entropy := e }).Stores w transport reading e' s := by
  refine ⟨?_, ?_, ?_, hs.directory, hs.entropy⟩
  · rw [after_address_self]
    exact hs.address
  · rw [after_messenger_self]
    exact hs.settings
  · rw [after_store_self, after_address_peer]
    exact hs.store

end Stores

section Read

variable (hc : AgreementCommutes) (hseals : OpensSealed) (hrefuses : ∀ n, e₀.refuses n = false)
  (ha : c.Arrives thread w x transport p t key)
include hc hseals hrefuses ha

/-- What is read is the content key. -/
theorem Arrives.plaintext_eq (h : c.InStep e₀ thread) {reading : KeyWrap.Reading}
    (hr : ReadBy c.entropy e' thread w transport.message p t reading) :
    reading.plaintext = key.bytes.toList := by
  obtain ⟨e₁, he, hd⟩ := hr.decrypt
  have hsound := (h.sound.joins p t ha.started).sound.later he
  exact hsound.plaintext_eq hc hseals hrefuses ha.mem_sent (ha.notMem_read h.logged) hd

/-- After an envelope was read the devices are in step. -/
theorem Arrives.inStep (h : c.InStep e₀ thread) {reading : KeyWrap.Reading}
    (hr : ReadBy c.entropy e' thread w transport.message p t reading)
    (hdistinct : e₀.DrawsDistinct e'.drawn) {s : Scene}
    (hs : c.Stores w transport reading e' s) :
    ∃ thread', ((c.after w s).pull w x.envelope).InStep e₀ thread' := by
  obtain ⟨e₁, he, hd⟩ := hr.decrypt
  have hlater : Entropy.Later c.entropy e' := he.trans ((Session.decrypt_advances _ _).of_ok hd)
  have hbuilt : p.role w = .first → t.built = true := fun hrole =>
    ha.built (Party.eq_of_role_eq_first hrole)
  obtain ⟨hcurrent, hsound, hsession, hsent, hread⟩ :=
    ((h.sound.joins p t ha.started).sound.later he).reads hc hseals hrefuses ha.mem_sent
      (ha.notMem_read h.logged) hd hdistinct hbuilt
  let t' := t.reads (p.role w) transport.message e₁
  have hbuilt' : t'.built = true := t.built_reads _ _ _ hbuilt
  let c₁ := c.after w { c.scene w with entropy := e' }
  have htended : Tended e₀ 0 (c.scene w) { c.scene w with entropy := e' } :=
    (Tended.refl (h.sound.ring w)).setEntropy hlater
  have h₁ : c₁.InStep e₀ thread := h.tended htended
  have hj := h₁.sound.joins p t ha.started
  have hset : c₁.Sound e₀ (thread.set p t') := by
    refine h₁.sound.set ⟨hsound, hj.initiator, hj.responder, fun hb => ?_, fun hb => ?_⟩
      (fun u hu => h₁.sound.baseKey p t u ha.started hu) fun hb => ?_
    all_goals cases hbuilt'.symm.trans hb
  have hacts : c₁.Acts e₀ 0 (thread.set p t') w s := by
    refine (hs.of_entropy e').acts hset (.refl _) fun hn hu => ?_
    rw [← hr.newSession hn] at hu
    cases hbuilt'.symm.trans ((thread.unbuilt_set_self p t').mp hu)
  have hafter : c₁.after w s = c.after w s := after_after ..
  have haddress : (c.after w s).address = c.address := by
    rw [← hafter, hacts.after_address]
    exact (h.sound.acts_of_tended htended).after_address
  have hsound' := hset.acts hacts
  have hkeeps' : (c₁.after w s).Keeps (thread.set p t') w.peer := by
    refine Keeps.acts_peer hacts ?_
    unfold Keeps
    rw [ha.sessionsOf_peer hsession hbuilt']
    exact h₁.keeps w.peer
  rw [hafter] at hsound' hkeeps'
  have hkeeps : ∀ v, (c.after w s).Keeps (thread.set p t') v := by
    refine Party.forall_of w ⟨some reading.record, ?_, hr.sessions t' hbuilt' hcurrent⟩ hkeeps'
    rw [after_store_self, after_address_peer, hs.sessions]
    exact Std.ExtTreeMap.getElem?_insert_self
  have hlogged := ha.logged_pull h.logged hsent hread rfl hbuilt'
  exact ⟨thread.set p t', hsound'.congr rfl rfl rfl, fun v => (hkeeps v).congr rfl,
    hlogged.congr haddress rfl rfl⟩

/-- An unwrapping that succeeds gives the content key and the identity of the sender. -/
theorem Arrives.exists_of_unwrapFrom (hopens : OpensOnlySealed) (h : c.InStep e₀ thread)
    (hfits : c.Fits) {u : KeyWrap.Unwrapped} {s : Scene}
    (hu : Messenger.unwrapFrom (c.address w.peer) transport (c.scene w) = .ok u s) :
    u.key = key ∧ u.identity = (c.store w.peer).identity.publicKey ∧ ∃ reading e',
      ReadBy c.entropy e' thread w transport.message p t reading ∧
        c.Stores w transport reading e' s := by
  obtain ⟨existing, reading, e', hload, hread, hkey, hidentity, hs⟩ :=
    Exchange.exists_of_unwrapFrom hu
  obtain ⟨existing', hload', hperm⟩ := (h.keeps w).exists_loadSession hfits
  cases hload.symm.trans hload'
  have hr := ha.exists_of_readTransport hopens h.sound hperm hread
  refine ⟨?_, ?_, reading, e', hr, hs⟩
  · rw [ha.plaintext_eq hc hseals hrefuses h hr, ContentKey.ofBytes, Block.ofList?_toList] at hkey
    exact (Except.ok.inj hkey).symm
  · obtain ⟨e₁, -, hd⟩ := hr.decrypt
    obtain ⟨r, -, hcurrent⟩ := Session.decrypt_eq_ok_iff.mp hd
    rw [hidentity, KeyWrap.readTransport_identity hread, hcurrent]
    exact (h.sound.joins p t ha.started).remoteIdentity w

/-- An envelope whose key is unwrapped gives the message that was encrypted. -/
theorem Arrives.decrypt_eq (hopens : OpensOnlySealed) (h : c.InStep e₀ thread) (hfits : c.Fits)
    {u : KeyWrap.Unwrapped} {s : Scene}
    (hu : Messenger.unwrapFrom (c.address w.peer) transport (c.scene w) = .ok u s) :
    ∃ trust, Messenger.decrypt (c.address w.peer) x.envelope (c.scene w) =
      (.decrypted {
        plaintext := x.plaintext
        sender := c.address w.peer
        trust
        fingerprint := (c.messenger w.peer).ownFingerprint },
      endState (Messenger.observeIdentity (c.address w.peer) u.identity) s) := by
  obtain ⟨hkey, hidentity, -⟩ :=
    ha.exists_of_unwrapFrom hc hseals hrefuses hopens h hfits hu
  have hpayload : u.key.decrypt x.envelope.payload (c.address w.peer) = .ok x.plaintext := by
    rw [hkey]
    exact ha.carries.payload
  have hsender := h.logged.sender w.peer x ha.sent
  have hdecrypt := Messenger.decrypt_of_unwrapFrom (s := c.scene w) hsender ha.keyFor hu hpayload
  have hfingerprint : u.identity.fingerprint = (c.messenger w.peer).ownFingerprint := by
    rw [hidentity]
    rfl
  rw [hfingerprint] at hdecrypt
  exact ⟨_, hdecrypt⟩

/-- A key within reach is read by the session that the device has in its thread. -/
theorem Arrives.exists_readKnown (hopens : OpensOnlySealed) (h : c.InStep e₀ thread)
    (hp : p = w ∨ t.built = true) {record : SessionRecord}
    (hperm : record.sessions.Perm (thread.sessionsOf w))
    (hreach : (t.session (p.role w)).ratchet.WithinReach transport.message)
    {baseKey : Option PublicKey}
    (hbase : SessionRecord.agreedWith baseKey (t.session (p.role w)) = true) :
    ∃ reading e',
      KeyWrap.readKnown record transport.message baseKey c.entropy = .ok reading e' := by
  have hmem := hperm.mem_iff.mpr (Threads.session_mem_sessionsOf (w := w) ha.started hp)
  -- sessions that are tried before refuse the message, as they belong to the other thread
  have hothers : ∀ s ∈ record.sessions, s ≠ t.session (p.role w) →
      SessionRecord.agreedWith baseKey s = true → s.Refuses transport.message := by
    intro s hs hne _
    obtain ⟨q, u, hu, -, rfl⟩ := Threads.mem_sessionsOf_iff.mp (hperm.mem_iff.mp hs)
    refine ha.refuses hopens h.sound hu ?_
    rintro rfl
    cases ha.started.symm.trans hu
    exact hne rfl
  have hread : ∀ e₁, Entropy.Later c.entropy e₁ →
      ∃ a e', (t.session (p.role w)).decrypt transport.message e₁ = .ok a e' := by
    intro e₁ he
    rw [Thread.session_ratchet] at hreach
    obtain ⟨r, e', hd⟩ := ((h.sound.joins p t ha.started).sound.later he).exists_decrypt hc hseals
      hrefuses ha.mem_sent (ha.notMem_read h.logged) hreach
    rw [← Thread.session_ratchet] at hd
    exact ⟨_, e', Session.decrypt_eq_ok_iff.mpr ⟨r, hd, rfl⟩⟩
  obtain ⟨a, e', hd⟩ := SessionRecord.exists_decrypt hmem hbase hothers hread
  exact ⟨_, e', bind_eq_ok_iff.mpr ⟨a, e', hd, rfl⟩⟩

/-- A key within reach is read by a session that the device builds for it. -/
theorem Arrives.exists_readNew (h : c.InStep e₀ thread) (hp : ¬ (p = w ∨ t.built = true))
    {existing : Option SessionRecord} {header : PreKeyHeader}
    (hpre : transport.preKey = some header)
    (hkept : ((c.store w).signedPreKeys.get? header.signedPreKeyId).isSome)
    (hnumber : transport.message.header.number.toNat ≤ (c.messenger w).settings.maxSkip.toNat) :
    ∃ reading e', KeyWrap.readNew (c.messenger w).settings.keyWrap (c.store w) existing header
      transport.message c.entropy = .ok reading e' := by
  have hb : t.built = false := Bool.eq_false_iff.mpr fun hb => hp (.inr hb)
  obtain ⟨hpeer, rfl⟩ := ha.eq_peer_of_preKey hpre
  subst hpeer
  have hj := h.sound.joins _ t ha.started
  have hinbound := hj.inbound hb (by rw [Party.peer_peer]; exact hkept)
  rw [Party.peer_peer] at hinbound
  have hreach := KeyWrap.withinReach_of_inbound hinbound hnumber
  rw [Thread.session_ratchet] at hreach
  have hsent := ha.mem_sent
  have hunread := ha.notMem_read h.logged
  rw [Party.role_of_peer] at hsent hunread
  obtain ⟨r, e', hd⟩ := hj.sound.exists_decrypt hc hseals hrefuses hsent hunread hreach
  rw [← Thread.session_ratchet] at hd
  have hsession := Session.decrypt_eq_ok_iff.mpr ⟨r, hd, rfl⟩
  exact ⟨_, e', bind_eq_ok_iff.mpr ⟨_, _, Draw.ofExcept_eq_ok_iff.mpr ⟨hinbound, rfl⟩,
    bind_eq_ok_iff.mpr ⟨_, e', hsession, rfl⟩⟩⟩

/-- A key within reach is read, by the end that the device has in its thread or by one that it
builds. -/
theorem Arrives.exists_readTransport (hopens : OpensOnlySealed) (h : c.InStep e₀ thread)
    {existing : Option SessionRecord}
    (hload : (c.store w).loadSession (c.address w.peer) = .ok existing)
    (hperm : (existing.elim [] SessionRecord.sessions).Perm (thread.sessionsOf w))
    (hreadable : c.Readable w x) :
    ∃ reading e', KeyWrap.readTransport (c.messenger w).settings.keyWrap (c.store w)
      (c.address w.peer) existing transport c.entropy = .ok reading e' := by
  have hsessions : c.sessions w = existing.elim [] SessionRecord.sessions := by
    unfold sessions
    rw [hload]
    cases existing <;> rfl
  have hagreed := t.agreedWith_session (p.role w)
  have hreach := hreadable transport ha.keyFor
  rw [hsessions, ha.carries.baseKey] at hreach
  by_cases hp : p = w ∨ t.built = true
  · have hmem := hperm.mem_iff.mpr (Threads.session_mem_sessionsOf (w := w) ha.started hp)
    have hfind : (existing.elim [] SessionRecord.sessions).find?
        (SessionRecord.agreedWith (some t.header.baseKey)) = some (t.session (p.role w)) := by
      cases hf : (existing.elim [] SessionRecord.sessions).find?
          (SessionRecord.agreedWith (some t.header.baseKey)) with
      | none => exact absurd hagreed (List.find?_eq_none.mp hf _ hmem)
      | some s =>
        have hs := hperm.mem_iff.mp (List.mem_of_find?_eq_some hf)
        rw [(ha.eq_of_agreedWith h.sound hs (List.find?_some hf)).2]
    rw [hfind] at hreach
    have hnamed : ∀ header, transport.preKey = some header →
        SessionRecord.agreedWith (some header.baseKey) (t.session (p.role w)) = true := by
      intro header hpre
      rw [(ha.eq_peer_of_preKey hpre).2]
      exact hagreed
    cases existing with
    | none => cases hmem
    | some record =>
      rw [KeyWrap.readTransport_of_agreedWith hmem hnamed]
      refine ha.exists_readKnown hc hseals hrefuses hopens h hp hperm hreach ?_
      cases hpre : transport.preKey with
      | none => rfl
      | some header => exact hnamed header hpre
  · have hno : ∀ s ∈ existing.elim [] SessionRecord.sessions,
        ¬ SessionRecord.agreedWith (some t.header.baseKey) s = true := fun s hs hagreed =>
      hp (ha.eq_of_agreedWith h.sound (hperm.mem_iff.mp hs) hagreed).1
    rw [List.find?_eq_none.mpr hno] at hreach
    obtain ⟨hnumber, hkept⟩ := hreach
    cases hpre : transport.preKey with
    | none => exact absurd (.inr (ha.carries.built hpre)) hp
    | some header =>
      rw [← (ha.eq_peer_of_preKey hpre).2] at hno
      rw [KeyWrap.readTransport_of_not_agreedWith hpre hno]
      exact ha.exists_readNew hc hseals hrefuses h hp hpre (hkept header hpre) hnumber

/-- A key within reach is unwrapped. -/
theorem Arrives.exists_unwrapFrom (hopens : OpensOnlySealed) (h : c.InStep e₀ thread)
    (hfits : c.Fits) (hreadable : c.Readable w x) :
    ∃ u s, Messenger.unwrapFrom (c.address w.peer) transport (c.scene w) = .ok u s := by
  obtain ⟨existing, hload, hperm⟩ := (h.keeps w).exists_loadSession hfits
  obtain ⟨reading, e', hr⟩ :=
    ha.exists_readTransport hc hseals hrefuses hopens h hload hperm hreadable
  have hplaintext := ha.plaintext_eq hc hseals hrefuses h
    (ha.exists_of_readTransport hopens h.sound hperm hr)
  have hkey : ContentKey.ofBytes reading.plaintext = .ok key := by
    rw [hplaintext, ContentKey.ofBytes, Block.ofList?_toList]
  have hu := KeyWrap.unwrap_of_readTransport hload hr hkey
  exact ⟨_, _, Messenger.unwrapFrom_eq_ok_iff.mpr ⟨_, e', hu, rfl⟩⟩

end Read

/-- An envelope that arrives carries a message of one of the threads. -/
theorem InStep.exists_arrives (h : c.InStep e₀ thread) (hx : x ∈ c.sent w.peer)
    (hunread : x.envelope ∉ c.received w)
    (hkey : x.envelope.keyFor (c.address w) = some transport) :
    ∃ p t key, c.Arrives thread w x transport p t key := by
  have hkey' : x.envelope.keyFor (c.address w.peer.peer) = some transport := by
    rw [Party.peer_peer]
    exact hkey
  obtain ⟨p, t, key, ht, hcarries⟩ := h.logged.carried w.peer x transport hx hkey'
  exact ⟨p, t, key, hx, hunread, hkey, ht, hcarries⟩

/-- The arrival of an envelope keeps the devices in step, whether it is read or not. -/
theorem InStep.deliver (hc : AgreementCommutes) (hseals : OpensSealed) (hopens : OpensOnlySealed)
    (hrefuses : ∀ n, e₀.refuses n = false) (h : c.InStep e₀ thread) (hfits : c.Fits)
    {envelope : Envelope}
    (hdistinct : e₀.DrawsDistinct (c.step (.deliver w envelope)).entropy.drawn) :
    ∃ thread', (c.step (.deliver w envelope)).InStep e₀ thread' := by
  have hrefl : Tended e₀ 0 (c.scene w) (c.scene w) := .refl (h.sound.ring w)
  simp only [step] at hdistinct ⊢
  split at hdistinct
  · next hflight =>
    rw [if_pos hflight]
    obtain ⟨x, hx, rfl⟩ := List.mem_map.mp hflight.1
    have hsender := h.logged.sender w.peer x hx
    cases hkey : x.envelope.keyFor (c.address w) with
    | none =>
      rw [Messenger.decrypt_of_keyFor_eq_none hsender hkey]
      exact ⟨thread, h.tended hrefl⟩
    | some transport =>
      obtain ⟨p, t, key, ha⟩ := h.exists_arrives hx hflight.2 hkey
      cases hu : Messenger.unwrapFrom (c.address w.peer) transport (c.scene w) with
      | error err s =>
        obtain ⟨e, he, hs⟩ := Messenger.exists_of_unwrapFrom_eq_error hu
        have htended : Tended e₀ 0 (c.scene w) s := by
          rw [hs]
          exact hrefl.setEntropy he
        rcases Messenger.decrypt_of_unwrapFrom_error hsender hkey hu with ⟨device, hd⟩ | hd
        · rw [hd]
          exact ⟨thread, h.tended htended⟩
        · rw [hd]
          exact ⟨thread, h.tended htended⟩
      | ok u s =>
        obtain ⟨trust, hd⟩ := ha.decrypt_eq hc hseals hrefuses hopens h hfits hu
        obtain ⟨-, -, reading, e', hr, hs⟩ :=
          ha.exists_of_unwrapFrom hc hseals hrefuses hopens h hfits hu
        rw [hd] at hdistinct ⊢
        have hentropy : Leaves Scene.entropy
            (Messenger.observeIdentity (c.address w.peer) u.identity) :=
          Messenger.observeIdentity_leaves (fun _ _ => rfl) _ _
        change e₀.DrawsDistinct (endState (Messenger.observeIdentity (c.address w.peer) u.identity)
          s).entropy.drawn at hdistinct
        rw [hentropy s, hs.entropy] at hdistinct
        obtain ⟨thread', h'⟩ := ha.inStep hc hseals hrefuses h hr hdistinct hs
        have htended : Tended e₀ 0 (((c.after w s).pull w x.envelope).scene w)
            (endState (Messenger.observeIdentity (c.address w.peer) u.identity) s) := by
          refine (Messenger.observeIdentity_tended _ _).endState (fun _ _ ht => ht) ?_
          rw [scene_pull, scene_after]
          have hring := h'.sound.ring w
          change ((c.after w s).store w).signedPreKeys.Genuine e₀ _ at hring
          rw [after_store_self] at hring
          exact .refl hring
        have hafter := h'.tended htended
        rw [pull_after_after] at hafter
        exact ⟨thread', hafter⟩
  · next hflight =>
    rw [if_neg hflight]
    exact ⟨thread, h⟩

end MultiDevice.Exchange
