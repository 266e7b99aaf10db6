import MultiDevice.Proofs.Entries
import MultiDevice.Proofs.Exchange.Sound
import MultiDevice.Proofs.Messenger.Outcome

/-!
# One of two devices encrypts

A device wraps content keys for the other one only, because nobody else is known to the directory.
It uses the session it has, or starts a thread from the bundle of the other device.

## Main results

* `bundleFor_tended`: fetching a bundle is upkeep
* `Exchange.Sound.exists_of_wrapFor`: a key is wrapped by an end of a thread, which may be new
* `Exchange.InStep.encrypt`: an encryption keeps the devices in step
-/

namespace MultiDevice

variable [CipherSuite] {e₀ : Entropy} {n : Nat} {base : Scene}

theorem Messenger.observeIdentity_tended (device : DeviceAddress) (identity : PublicKey) :
    Ensures (Tended e₀ n base) (observeIdentity device identity) (fun _ => Tended e₀ n base)
      (Tended e₀ n base) := by
  intro s hs
  unfold observeIdentity
  cases TrustTable.observe device identity s.messenger.store.trust with
  | ok _ trust => exact hs.setTrust trust
  | error _ trust => exact hs.setTrust trust

/-- Fetching a bundle is upkeep, whether it succeeds or fails. A bundle is fetched only when there
is no session. -/
theorem Messenger.bundleFor_tended (device : DeviceAddress)
    (hr : base.messenger.store.signedPreKeys.Genuine e₀ base.entropy.drawn) :
    Ensures (fun s => s = base) (bundleFor device)
      (fun bundle s => Tended e₀ n base s ∧ ∀ b, bundle = some b →
        base.messenger.store.containsSession device = false ∧
          ∃ published, base.directory.bundles[device]? = some published ∧ published.Gives b)
      (Tended e₀ n base) := by
  rintro s rfl
  by_cases hsession : s.messenger.store.containsSession device = true
  · rw [bundleFor_of_session hsession]
    exact ⟨.refl hr, nofun⟩
  · cases hf : s.directory.fetchBundle device with
    | error err =>
      rw [bundleFor_of_fetch_error hsession hf]
      exact .refl hr
    | ok fetched =>
      obtain ⟨b, directory⟩ := fetched
      rw [bundleFor_of_fetch hsession hf]
      have htended : Tended e₀ n s (s.setDirectory directory) :=
        (Tended.refl hr).setDirectory fun _ b hb =>
          .inl ((Directory.serves_of_fetchBundle hf).handsOut b hb)
      refine ((Ensures.ofExcept (fun _ _ _ ht => ht) fun _ ht => ht).bind fun _ =>
        (observeIdentity_tended device b.identity).bind fun _ =>
          Ensures.pure fun t ht => ⟨ht, ?_⟩) _ htended
      rintro b' ⟨⟩
      exact ⟨Bool.eq_false_iff.mpr hsession, Directory.gives_of_fetchBundle hf⟩

/-- A failure to wrap a key is upkeep. -/
theorem Messenger.wrapFor_tended_of_error {device : DeviceAddress} {key : ContentKey} {s : Scene}
    {err : Error} (hr : base.messenger.store.signedPreKeys.Genuine e₀ base.entropy.drawn)
    (h : wrapFor key device base = .error err s) : Tended e₀ n base s := by
  have hbundle := bundleFor_tended (n := n) device hr base rfl
  rcases bind_eq_error_iff.mp h with hb | ⟨bundle, t, hb, hw⟩
  · rw [hb] at hbundle
    exact hbundle
  · rw [hb] at hbundle
    obtain ⟨ht, -⟩ := hbundle
    rw [wrap, bind_get] at hw
    obtain ⟨e, hk, rfl⟩ := Action.changeStore_eq_error_iff.mp hw
    exact ht.setEntropy ((KeyWrap.wrap_advances _ _ _ _ _).of_error hk)

/-- Preparing an encryption uses randomness and changes nothing else. The message opens again under
the content key. -/
theorem Messenger.prepare_ensures (hseals : OpensSealed) (recipients : List Account)
    (plaintext : Bytes) (allowed : DeviceSet) :
    Ensures (fun s => s = base) (prepare recipients plaintext allowed)
      (fun a s => (∃ e, Entropy.Later base.entropy e ∧ s = { base with entropy := e }) ∧
        a.2.1.decrypt a.2.2 base.messenger.address = .ok plaintext)
      (fun s => ∃ e, Entropy.Later base.entropy e ∧ s = { base with entropy := e }) := by
  have hdraw : ∀ {α : Type} {x : Draw α}, Draw.Advances x →
      Ensures (fun s => ∃ e, Entropy.Later base.entropy e ∧ s = { base with entropy := e })
        (Action.draw x)
        (fun a s => (∃ e, Entropy.Later base.entropy e ∧ s = { base with entropy := e }) ∧
          ∃ e e', x e = .ok a e')
        (fun s => ∃ e, Entropy.Later base.entropy e ∧ s = { base with entropy := e }) := by
    intro α x hx s hs
    obtain ⟨e, he, rfl⟩ := hs
    unfold Action.draw
    cases h : x e with
    | ok a e' => exact ⟨⟨e', he.trans (hx.of_ok h), rfl⟩, e, e', h⟩
    | error err e' => exact ⟨e', he.trans (hx.of_error h), rfl⟩
  refine Ensures.get_bind ?_
  rintro s rfl
  refine (Ensures.ofExcept (fun _ _ _ ht => ht) fun t ht => ⟨_, .refl _, ht⟩).bind fun devices => ?_
  refine (Ensures.ofExcept (fun _ _ _ ht => ⟨_, .refl _, ht⟩) fun t ht => ⟨_, .refl _, ht⟩).bind
    fun verdict => (hdraw ContentKey.generate_advances).bind fun key => ?_
  refine ((hdraw (key.encrypt_advances _ _)).weaken fun _ ht => ht.1).bind fun payload => ?_
  refine Ensures.pure ?_
  rintro t ⟨ht, e, e', h⟩
  exact ⟨ht, ContentKey.decrypt_of_encrypt hseals h⟩

namespace Exchange

variable {c : Exchange} {thread : Threads} {w p : Party} {t : Thread} {s : Scene}

/-- A device that is neither of the two cannot be written to. -/
theorem Sound.wrapFor_of_ne (h : c.Sound e₀ thread) (w : Party) {d : DeviceAddress}
    (hd : ∀ v, d ≠ c.address v) (key : ContentKey) :
    ∃ err, Messenger.wrapFor key d (c.scene w) = .error err (c.scene w) := by
  have hsession : ¬ (c.scene w).messenger.store.containsSession d = true := by
    intro hc
    obtain ⟨bytes, hb⟩ := Entries.exists_of_mem (Std.ExtTreeMap.contains_iff_mem.mp hc)
    exact hd w.peer (h.sessions w d bytes hb)
  have hbundle : c.directory.bundles[d]? = none := by
    cases hb : c.directory.bundles[d]? with
    | none => rfl
    | some b =>
      obtain ⟨v, hv, -⟩ := h.bundles d b hb
      exact absurd hv (hd v)
  have hfetch : ∃ err, c.directory.fetchBundle d = .error err := by
    unfold Directory.fetchBundle
    split
    · exact ⟨_, rfl⟩
    · rw [hbundle]
      exact ⟨_, rfl⟩
  obtain ⟨err, hf⟩ := hfetch
  exact ⟨err, bind_of_error (Messenger.bundleFor_of_fetch_error hsession hf)⟩

/-- A device starts a thread from the bundle of the other one, which builds its end from the header
unless it drops the signed pre-key. -/
theorem Sound.exists_of_outbound (hc : AgreementCommutes) (h : c.Sound e₀ thread)
    (hnone : thread w = none) {published : DeviceBundle} {b : PreKeyBundle}
    (hpublished : c.directory.bundles[c.address w.peer]? = some published)
    (hb : published.Gives b) (hs : c.Acts e₀ n thread w s)
    (hdistinct : e₀.DrawsDistinct s.entropy.drawn) {st : Store} {e : Entropy} {session : Session}
    (hi : st.identity = (c.store w).identity) (he : Entropy.Later c.entropy e)
    (ho : KeyWrap.outbound (c.messenger w).settings.keyWrap st b e = .ok session s.entropy) :
    ∃ t : Thread, (c.after w s).Sound e₀ (thread.set w t) ∧ t.session .first = session ∧
      t.built = false ∧ ∀ v, t.talk.read v = [] := by
  obtain ⟨v, hv, hoffers⟩ := h.bundles _ _ hpublished
  have hpeer : v = w.peer := by
    refine Party.eq_peer_of_ne ?_
    rintro rfl
    exact h.address v hv
  subst hpeer
  have hidentity : b.identity = published.identity := congrArg Credentials.identity hb.credentials
  have hsigned : b.signedPreKey = published.signedPreKey :=
    congrArg Credentials.signedPreKey hb.credentials
  obtain ⟨hlt, own, hown, hkey, hsame⟩ := hoffers.signed
  rw [← hsigned] at hlt hkey hsame
  -- the owner still has what its bundle offers, because no one has started a thread with it
  have hanswers : Answers (c.store w.peer) b own := by
    refine ⟨hidentity.trans hoffers.identity, hsame, fun k hk => ?_⟩
    refine hoffers.oneTime (fun t ht => ?_) k.id k.key (hb.oneTime k hk)
    rw [Party.peer_peer, hnone] at ht
    cases ht
  have hinfo : (c.messenger w.peer).settings.keyWrap.info =
      (c.messenger w).settings.keyWrap.info := h.info w
  obtain ⟨t, hsound, hfirst, hinitiator, hnumber, hresponder, -, hbuilt, -, hread, -, ⟨m, hm, hlast,
    hbase⟩, hinbound⟩ := Thread.exists_of_outbound hc (h.entropy.trans he) (hown.mono he.drawn) hkey
      hinfo hanswers ho
  have hafter := h.acts hs
  refine ⟨t, hafter.set ?_ ?_ ?_, hfirst, hbuilt, hread⟩
  · refine ⟨hsound, ?_, ?_, fun _ => ?_, fun _ hkept => ?_⟩
    · rw [hinitiator, after_store_self, hs.identity, hi]
    · rw [hresponder, after_store_peer, hidentity]
      exact hoffers.identity
    · rw [after_store_peer, hnumber]
      exact hlt
    · rw [after_store_peer, hnumber] at hkept
      rw [after_store_peer, after_messenger_peer]
      exact hinbound hkept
  · intro t' ht' heq
    obtain ⟨secret, ⟨j, hj, hjlt, rfl⟩, hbase'⟩ := (h.joins _ t' ht').sound.baseKey
    rw [hbase, hbase'] at heq
    exact hdistinct j m hj (Nat.lt_of_lt_of_le hjlt (Nat.le_trans he.drawn hm)) hlast heq.symm
  · intro _ t' ht'
    rw [hnone] at ht'
    cases ht'

/-- The devices after a key was wrapped, in the thread that `p` started: the state of that thread
before the message, the ratchet after it, and the record that is stored. -/
structure Wraps (e₀ : Entropy) (c : Exchange) (w : Party) (bytes : Bytes) (transport : KeyTransport)
    (thread : Threads) (p : Party) (t : Thread) : Prop where
  sound : c.Sound e₀ thread
  logged : c.Logged thread
  peer : c.Keeps thread w.peer
  started : thread p = some t
  joined : p = w ∨ t.built = true
  preKey : transport.preKey = (t.session (p.role w)).pending
  ratchet : ∃ (r : Ratchet) (record : SessionRecord),
    (t.talk.ratchet (p.role w)).encrypt bytes = .ok transport.message r ∧
      record.current = { t.session (p.role w) with ratchet := r } ∧
      (c.store w).sessions[c.address w.peer]? = some record.serialize ∧
      (t.session (p.role w) :: record.previous).Perm (thread.sessionsOf w)

theorem Sound.acts_of_wrapFor (h : c.Sound e₀ thread) {key : ContentKey} {transport : KeyTransport}
    (hw : Messenger.wrapFor key (c.address w.peer) (c.scene w) = .ok transport s) :
    c.Acts e₀ 0 thread w s := by
  obtain ⟨bundle, u, hb, hrest⟩ := bind_eq_ok_iff.mp hw
  have hbundle := Messenger.bundleFor_tended (n := 0) (c.address w.peer) (h.ring w) (c.scene w) rfl
  rw [hb] at hbundle
  rw [Messenger.wrap, bind_get] at hrest
  obtain ⟨st, e, hwrap, rfl⟩ := Action.changeStore_eq_ok_iff.mp hrest
  have hadvances := (KeyWrap.wrap_advances _ _ _ _ _).of_ok hwrap
  obtain ⟨record, session, -, -, -, rfl⟩ := KeyWrap.wrap_eq_ok_iff.mp hwrap
  exact (h.acts_of_tended (hbundle.1.setEntropy hadvances)).save _

/-- Wrapping a key for the other device keeps everything fitting, whether it succeeds or fails. -/
theorem Sound.acts_endState_wrapFor (h : c.Sound e₀ thread) (w : Party) (key : ContentKey) :
    c.Acts e₀ 0 thread w (endState (Messenger.wrapFor key (c.address w.peer)) (c.scene w)) := by
  cases hx : Messenger.wrapFor key (c.address w.peer) (c.scene w) with
  | ok transport t =>
    rw [endState_of_ok hx]
    exact h.acts_of_wrapFor hx
  | error err t =>
    rw [endState_of_error hx]
    exact h.acts_of_tended (Messenger.wrapFor_tended_of_error (h.ring w) hx)

/-- A third device is refused also after a key was wrapped for the other one. -/
theorem Sound.wrapFor_of_ne_after (h : c.Sound e₀ thread) (w : Party) {d : DeviceAddress}
    (hd : ∀ v, d ≠ c.address v) (key : ContentKey) : ∃ err,
      Messenger.wrapFor key d (endState (Messenger.wrapFor key (c.address w.peer)) (c.scene w)) =
        .error err (endState (Messenger.wrapFor key (c.address w.peer)) (c.scene w)) := by
  have hacts := h.acts_endState_wrapFor w key
  have hd' : ∀ v, d ≠ (c.after w (endState (Messenger.wrapFor key (c.address w.peer))
      (c.scene w))).address v := by
    rw [hacts.after_address]
    exact hd
  have hrefused := (h.acts hacts).wrapFor_of_ne w hd' key
  rw [scene_after] at hrefused
  exact hrefused

/-- A key is wrapped by the initiator of a thread that was just started. -/
theorem Logged.wraps_new (hl : c.Logged thread) (hk : c.Keeps thread w.peer)
    (hacts : c.Acts e₀ 0 thread w s) (hnone : thread w = none)
    (hsound : (c.after w s).Sound e₀ (thread.set w t)) (hbuilt : t.built = false)
    (hread : ∀ v, t.talk.read v = []) {bytes : Bytes} {transport : KeyTransport} {r : Ratchet}
    (hpreKey : transport.preKey = (t.session .first).pending)
    (hr : (t.session .first).ratchet.encrypt bytes = .ok transport.message r)
    (hstored : ((c.after w s).store w).sessions[(c.after w s).address w.peer]? =
      some (SessionRecord.ofSession { t.session .first with ratchet := r }).serialize)
    (hempty : thread.sessionsOf w = []) :
    (c.after w s).Wraps e₀ w bytes transport (thread.set w t) w t := by
  have hin : ∀ v, thread.sessionIn v w = none := by
    intro v
    rw [Threads.sessionIn, hnone, Option.bind_none]
  rw [Thread.session_ratchet] at hr
  refine ⟨hsound, (hl.acts hacts).set_new hnone hread, ?_, thread.set_self w t, .inl rfl, ?_, r,
    SessionRecord.ofSession { t.session .first with ratchet := r }, ?_, ?_, hstored, ?_⟩
  · obtain ⟨existing, hstored', hperm⟩ := hk.acts_peer hacts
    refine ⟨existing, hstored', ?_⟩
    rw [Threads.sessionsOf_set]
    · exact hperm
    · rw [hin, Threads.sessionIn_eq_none (thread.set_self w t) (Party.peer_ne w).symm hbuilt]
  · rw [Party.role_self]
    exact hpreKey
  · rw [Party.role_self]
    exact hr
  · rw [Party.role_self]
    rfl
  · refine Threads.perm_sessionsOf_insert (hin w) (.inl rfl) ?_ rfl
    rw [hempty]
    exact .refl _

/-- A key is wrapped by an end of a thread, which is started if the device has no session. -/
theorem Sound.exists_of_wrapFor (hc : AgreementCommutes) (h : c.Sound e₀ thread)
    (hk : ∀ v, c.Keeps thread v) (hl : c.Logged thread) (hfits : c.Fits) {key : ContentKey}
    {transport : KeyTransport}
    (hw : Messenger.wrapFor key (c.address w.peer) (c.scene w) = .ok transport s)
    (hdistinct : e₀.DrawsDistinct s.entropy.drawn) :
    ∃ thread' p t, (c.after w s).Wraps e₀ w key.bytes.toList transport thread' p t := by
  have hacts := h.acts_of_wrapFor hw
  obtain ⟨bundle, u, hb, hrest⟩ := bind_eq_ok_iff.mp hw
  have hbundle := Messenger.bundleFor_tended (n := 0) (c.address w.peer) (h.ring w) (c.scene w) rfl
  rw [hb] at hbundle
  obtain ⟨hu, hfetched⟩ := hbundle
  rw [Messenger.wrap, bind_get] at hrest
  obtain ⟨st, e, hwrap, hs⟩ := Action.changeStore_eq_ok_iff.mp hrest
  have hadvances := (KeyWrap.wrap_advances _ _ _ _ _).of_ok hwrap
  obtain ⟨record, session, hrecord, hencrypt, hpreKey, rfl⟩ := KeyWrap.wrap_eq_ok_iff.mp hwrap
  obtain ⟨r, hr, rfl⟩ := Session.encrypt_eq_ok_iff.mp hencrypt
  let record' : SessionRecord := { record with current := { record.current with ratchet := r } }
  have hentropy : s.entropy = e := by rw [hs]
  have hstored : ((c.after w s).store w).sessions[(c.after w s).address w.peer]? =
      some record'.serialize := by
    rw [after_store_self, hacts.after_address, hs]
    exact Std.ExtTreeMap.getElem?_insert_self
  have hload : u.messenger.store.loadSession (c.address w.peer) =
      (c.store w).loadSession (c.address w.peer) := by
    rw [Store.loadSession, hu.sessions]
    rfl
  obtain ⟨existing, hexisting, hperm⟩ := (hk w).exists_loadSession hfits
  rcases KeyWrap.recordFor_eq_ok_iff.mp hrecord with
    ⟨hloaded, -⟩ | ⟨hloaded, b, session, rfl, ho, rfl⟩
  · cases (hexisting.symm.trans hload.symm).trans hloaded
    obtain ⟨p, t, ht, hp, hcurrent⟩ :=
      Threads.mem_sessionsOf_iff.mp (hperm.mem_iff.mp (List.mem_cons_self ..))
    rw [hcurrent] at hr hpreKey
    rw [Thread.session_ratchet] at hr
    refine ⟨thread, p, t, h.acts hacts, hl.acts hacts, (hk w.peer).acts_peer hacts, ht, hp, hpreKey,
      r, record', hr, ?_, hstored, ?_⟩
    · change { record.current with ratchet := r } = _
      rw [hcurrent]
    · rw [← hcurrent]
      exact hperm
  · cases (hexisting.symm.trans hload.symm).trans hloaded
    have hempty := hperm.nil_eq
    have hnone : thread w = none := by
      cases ht : thread w with
      | none => rfl
      | some t =>
        have hmem := Threads.session_mem_sessionsOf (w := w) ht (.inl rfl)
        rw [← hempty] at hmem
        cases hmem
    obtain ⟨-, published, hpublished, hgives⟩ := hfetched b rfl
    rw [hu.settings, ← hentropy] at ho
    obtain ⟨t, hsound, hfirst, hbuilt, hread⟩ :=
      h.exists_of_outbound hc hnone hpublished hgives hacts hdistinct hu.identity hu.entropy ho
    subst hfirst
    exact ⟨thread.set w t, w, t,
      hl.wraps_new (hk w.peer) hacts hnone hsound hbuilt hread hpreKey hr hstored hempty.symm⟩

section Wraps

variable {bytes : Bytes} {transport : KeyTransport} (h : c.Wraps e₀ w bytes transport thread p t)
include h

/-- The thread that a message was sent in is sound again. -/
theorem Wraps.sound_sends : c.Sound e₀ (thread.set p (t.sends (p.role w) bytes)) := by
  obtain ⟨r, record, hr, -⟩ := h.ratchet
  have hj := h.sound.joins p t h.started
  refine h.sound.set ⟨hj.sound.sends hr, hj.initiator, hj.responder, hj.number, ?_⟩
    (fun t' ht' => h.sound.baseKey p t t' h.started ht') ?_
  · intro hb hkept
    have hw : p = w := h.joined.resolve_right (Bool.eq_false_iff.mp hb)
    subst hw
    rw [Party.role_self] at hr ⊢
    have hpeer : (t.sends .first bytes).session .second = t.session .second :=
      Thread.sends_session_peer hr
    rw [hpeer]
    exact hj.inbound hb hkept
  · intro hb t' ht'
    cases h.started.symm.trans ht'
    exact hb

theorem Wraps.keeps_sends (v : Party) :
    c.Keeps (thread.set p (t.sends (p.role w) bytes)) v := by
  obtain ⟨r, record, hr, hcurrent, hstored, hperm⟩ := h.ratchet
  revert v
  refine Party.forall_of w ?_ ?_
  · refine ⟨some record, hstored, ?_⟩
    refine Threads.perm_sessionsOf_set h.started h.joined h.joined hperm ?_
    rw [Thread.sends_session_self hr]
    exact hcurrent
  · obtain ⟨existing, hstored', hperm'⟩ := h.peer
    refine ⟨existing, hstored', ?_⟩
    have hpeer : (t.sends (p.role w) bytes).session (p.role w.peer) =
        t.session (p.role w.peer) := by
      rw [← Party.peer_role]
      exact Thread.sends_session_peer hr
    rw [Threads.sessionsOf_set_of_session_eq h.started hpeer Iff.rfl]
    exact hperm'

/-- Sending leaves what was read in the thread alone, and adds to what was sent. -/
theorem Wraps.logged_sends : c.Logged (thread.set p (t.sends (p.role w) bytes)) := by
  obtain ⟨r, record, hr, -⟩ := h.ratchet
  have htalk := Thread.sends_talk hr
  refine h.logged.set h.started rfl (fun v a ha => ?_) id fun v m hm => ?_
  · rw [htalk]
    change a ∈ Function.update t.talk.sent (p.role w) _ v
    by_cases hv : v = p.role w
    · rw [hv, Function.update_self]
      exact List.mem_cons_of_mem _ (hv ▸ ha)
    · rw [Function.update_of_ne hv]
      exact ha
  · rw [htalk] at hm
    exact .inl hm

/-- What was wrapped is a message of the thread. -/
theorem Wraps.mem_sent :
    (bytes, transport.message) ∈ (t.sends (p.role w) bytes).talk.sent (p.role w) := by
  obtain ⟨r, record, hr, -⟩ := h.ratchet
  rw [Thread.sends_talk hr]
  change _ ∈ Function.update t.talk.sent (p.role w) _ (p.role w)
  rw [Function.update_self]
  exact List.mem_cons_self

/-- No envelope that was sent before carries the message. -/
theorem Wraps.message_ne (hseals : OpensSealed) (hopens : OpensOnlySealed) {y : Sent}
    {transport' : KeyTransport} (hy : y ∈ c.sent w)
    (hkey : y.envelope.keyFor (c.address w.peer) = some transport') :
    transport.message ≠ transport'.message := by
  obtain ⟨r, record, hr, -⟩ := h.ratchet
  obtain ⟨q, u, key, hu, hcarries⟩ := h.logged.carried w y transport' hy hkey
  intro heq
  have hsent := hcarries.sent
  rw [← heq] at hsent
  have hsound := (h.sound.joins p t h.started).sound
  by_cases hq : q = p
  · subst hq
    cases h.started.symm.trans hu
    exact hsound.notMem_sent hr (List.mem_map_of_mem hsent)
  · have hpeer := Party.eq_peer_of_ne hq
    subst hpeer
    have hne := h.sound.associatedData_ne h.started hu
    exact (h.sound.joins _ u hu).sound.notMem_sent_of_ne hseals hopens hsent (hsound.sends hr)
      hne.symm _ _ h.mem_sent

end Wraps

/-- After a key was wrapped and its envelope sent, the devices are in step. -/
theorem Wraps.inStep (hseals : OpensSealed) (hopens : OpensOnlySealed) {key : ContentKey}
    {transport : KeyTransport} (h : c.Wraps e₀ w key.bytes.toList transport thread p t)
    (hfits : c.Fits) {plaintext : Bytes} {envelope : Envelope}
    (hsender : envelope.sender = c.address w)
    (hkey : envelope.keyFor (c.address w.peer) = some transport)
    (hpayload : key.decrypt envelope.payload (c.address w) = .ok plaintext) :
    (c.push w plaintext envelope).InStep e₀
      (thread.set p (t.sends (p.role w) key.bytes.toList)) := by
  refine ⟨h.sound_sends.congr rfl rfl rfl, fun v => (h.keeps_sends v).congr rfl, ?_⟩
  obtain ⟨r, record, hr, hcurrent, hstored, -⟩ := h.ratchet
  have hload : (c.store w).loadSession (c.address w.peer) = .ok (some record) := by
    rw [Store.loadSession, hstored]
    simp only [SessionRecord.deserialize_serialize (hfits w _ _ hstored)]
    rfl
  have hbase : (c.sessions w).head?.map (·.baseKey) = some t.header.baseKey := by
    unfold sessions
    rw [hload]
    change some record.current.baseKey = _
    rw [hcurrent]
    exact congrArg some (t.session_baseKey _)
  refine h.logged_sends.log hsender ?_ ?_
  · intro transport' htransport
    cases hkey.symm.trans htransport
    refine ⟨p, _, key, thread.set_self p _, hbase, h.mem_sent, hpayload, fun header hh => ?_,
      fun hnone => ?_⟩
    · obtain ⟨hrole, -, hheader⟩ := Thread.pending_eq_some_iff.mp (h.preKey.symm.trans hh)
      exact ⟨Party.eq_of_role_eq_first hrole, hheader⟩
    · rcases h.joined with hp | hbuilt
      · refine (h.sound.joins p t h.started).sound.built ?_
        by_contra hanswered
        have hpending : (t.session (p.role w)).pending = some t.header := by
          refine Thread.pending_eq_some_iff.mpr ⟨?_, by simpa using hanswered, rfl⟩
          rw [hp, Party.role_self]
        rw [← h.preKey, hnone] at hpending
        cases hpending
      · exact hbuilt
  · intro y transport' transport'' hy htransport hkey'
    cases hkey.symm.trans htransport
    exact h.message_ne hseals hopens hy hkey'

/-- An envelope that carries no key for the other device leaves the devices in step. -/
theorem InStep.push_of_keyFor_eq_none (h : c.InStep e₀ thread) {plaintext : Bytes}
    {envelope : Envelope} (hsender : envelope.sender = c.address w)
    (hkey : envelope.keyFor (c.address w.peer) = none) :
    (c.push w plaintext envelope).InStep e₀ thread := by
  refine ⟨h.sound.congr rfl rfl rfl, fun v => (h.keeps v).congr rfl, h.logged.log hsender ?_ ?_⟩
  · intro transport htransport
    cases hkey.symm.trans htransport
  · intro y transport transport' _ htransport
    cases hkey.symm.trans htransport

/-- Upkeep keeps the devices in step. -/
theorem InStep.tended (h : c.InStep e₀ thread) (hs : Tended e₀ n (c.scene w) s) :
    (c.after w s).InStep e₀ thread :=
  have ha := h.sound.acts_of_tended hs
  ⟨h.sound.acts ha, Keeps.tended h.sound h.keeps hs, h.logged.acts ha⟩

/-- An envelope with the keys that were wrapped for several devices keeps the devices in step. -/
theorem InStep.push_of_wrapAll (hc : AgreementCommutes) (hseals : OpensSealed)
    (hopens : OpensOnlySealed) (h : c.InStep e₀ thread) (hfits : c.Fits)
    {devices : List DeviceAddress} (hn : devices.Nodup) (hown : c.address w ∉ devices)
    {key : ContentKey} {keys : List RecipientKey} {failures : List DeviceFailure}
    (hw : Messenger.wrapAll key devices (c.scene w) = .ok (keys, failures) s)
    (hfits' : (c.after w s).Fits) (hdistinct : e₀.DrawsDistinct s.entropy.drawn)
    {plaintext : Bytes} {envelope : Envelope} (hsender : envelope.sender = c.address w)
    (hkeys : envelope.keys = keys)
    (hpayload : key.decrypt envelope.payload (c.address w) = .ok plaintext) :
    ∃ thread', ((c.after w s).push w plaintext envelope).InStep e₀ thread' := by
  have hne : ∀ d ∈ devices, d ≠ c.address w.peer → ∀ v, d ≠ c.address v := by
    intro d hd hpeer
    refine Party.forall_of w ?_ hpeer
    rintro rfl
    exact hown hd
  rcases Messenger.exists_of_wrapAll_eq_ok hn
      (fun d hd hp => h.sound.wrapFor_of_ne w (hne d hd hp) key)
      (fun d hd hp => h.sound.wrapFor_of_ne_after w (hne d hd hp) key) hw with
    ⟨hnone, hs⟩ | ⟨transport, hx, hone⟩
  · have htended : Tended e₀ 0 (c.scene w) s := by
      rcases hs with rfl | ⟨err, hx⟩
      · exact .refl (h.sound.ring w)
      · exact Messenger.wrapFor_tended_of_error (h.sound.ring w) hx
    refine ⟨thread, (h.tended htended).push_of_keyFor_eq_none ?_ ?_⟩
    · rw [after_address_self, htended.address]
      exact hsender
    · rw [Envelope.keyFor, hkeys, hnone]
      rfl
  · obtain ⟨thread', p, t, hwraps⟩ :=
      h.sound.exists_of_wrapFor hc h.keeps h.logged hfits hx hdistinct
    have haddress := (h.sound.acts_of_wrapFor hx).after_address
    refine ⟨_, hwraps.inStep hseals hopens hfits' ?_ ?_ ?_⟩
    · rw [haddress]
      exact hsender
    · rw [haddress, Envelope.keyFor, hkeys, hone, List.find?_singleton, if_pos (by simp)]
      rfl
    · rw [haddress]
      exact hpayload

/-- An encryption keeps the devices in step, whether it succeeds or fails. -/
theorem InStep.encrypt (hc : AgreementCommutes) (hseals : OpensSealed) (hopens : OpensOnlySealed)
    (h : c.InStep e₀ thread) (hfits : c.Fits) {recipients : List Account} {plaintext : Bytes}
    {allowed : DeviceSet} (hfits' : (c.step (.encrypt w recipients plaintext allowed)).Fits)
    (hdistinct : e₀.DrawsDistinct
      (c.step (.encrypt w recipients plaintext allowed)).entropy.drawn) :
    ∃ thread', (c.step (.encrypt w recipients plaintext allowed)).InStep e₀ thread' := by
  have hprepare := Messenger.prepare_ensures hseals recipients plaintext allowed (c.scene w)
    (rfl : c.scene w = c.scene w)
  simp only [step] at hfits' hdistinct ⊢
  cases hx : Messenger.encryptFor recipients plaintext allowed (c.scene w) with
  | error err s =>
    rw [Messenger.prepare_of_encryptFor_eq_error hx] at hprepare
    obtain ⟨e, he, rfl⟩ := hprepare
    exact ⟨thread, h.tended (n := 0) ((Tended.refl (h.sound.ring w)).setEntropy he)⟩
  | ok encryption s =>
    rw [hx] at hfits' hdistinct
    obtain ⟨verdict, key, payload, u, keys, failures, hp, hw, rfl⟩ :=
      Messenger.exists_of_encryptFor_eq_ok hx
    rw [hp] at hprepare
    obtain ⟨⟨e, he, hu⟩, hpayload⟩ := hprepare
    have hprepared : (c.after w u).InStep e₀ thread := by
      rw [hu]
      exact h.tended (n := 0) ((Tended.refl (h.sound.ring w)).setEntropy he)
    have haddress : (c.after w u).address w = c.address w := by
      rw [after_address_self, hu]
      rfl
    have hfitsu : (c.after w u).Fits := by
      refine hfits.after ?_
      rw [hu]
      rfl
    have hown : (c.after w u).address w ∉ verdict.accepted.toList := by
      rw [haddress, Std.ExtTreeSet.mem_toList]
      exact Messenger.address_notMem_of_prepare hp
    rw [← scene_after c w u] at hw
    have hpush := hprepared.push_of_wrapAll hc hseals hopens hfitsu
      verdict.accepted.nodup_toList hown hw
    rw [after_after, haddress] at hpush
    exact hpush hfits' hdistinct rfl rfl hpayload

end Exchange

end MultiDevice
