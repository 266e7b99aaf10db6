import MultiDevice.Proofs.Entries
import MultiDevice.Proofs.Session.Stored
import MultiDevice.Proofs.Trust.History

/-!
# Sessions are pinned to the identity on record

Sessions and trust decisions are kept in two tables that change at different moments. After every
request the current session with a device is one with the identity that the decision on the device
is held for, also when a superseded session with another identity became current again.

## Main definitions

* `Pinned`: the current sessions kept are with the identities on record
* `WrappedWith`: the session that wrapped a content key, and the identity that the decision on its
  device is held for

## Main results

* `Request.perform_pinned`: every request keeps sessions pinned
* `Scene.sessions_pinned`: sessions are pinned in every scene that a run leads to, and content keys
  are wrapped by sessions with the identity that the decision is held for
-/

namespace MultiDevice

/-- What is kept for a device are sessions of which the current one is with the identity on
record. -/
def Pinned (sessions : Std.ExtTreeMap DeviceAddress Bytes) (trust : TrustTable) : Prop :=
  ∀ device bytes, sessions[device]? = some bytes → ∃ record known,
    bytes = SessionRecord.serialize record ∧ (trust.record device).identity = some known ∧
      known.SamePoint record.current.remoteIdentity

/-- The sessions kept by the messenger of a scene. -/
def Scene.sessions (s : Scene) : Std.ExtTreeMap DeviceAddress Bytes := s.messenger.store.sessions

theorem Store.exists_of_loadSession {s : Store} {device : DeviceAddress}
    {record : SessionRecord} (h : s.loadSession device = .ok (some record)) :
    ∃ bytes, s.sessions[device]? = some bytes ∧ SessionRecord.deserialize bytes = .ok record := by
  unfold loadSession at h
  cases hb : s.sessions[device]? with
  | none =>
    rw [hb] at h
    cases h
  | some bytes =>
    rw [hb] at h
    cases hd : SessionRecord.deserialize bytes with
    | error err =>
      simp only [hd] at h
      cases h
    | ok r =>
      simp only [hd] at h
      cases h
      exact ⟨bytes, rfl, hd⟩

theorem Store.mem_sessions_of_loadSession {s : Store} {device : DeviceAddress}
    {record : SessionRecord} (h : s.loadSession device = .ok (some record)) :
    device ∈ s.sessions := by
  obtain ⟨bytes, hb, -⟩ := exists_of_loadSession h
  exact Entries.mem_of_getElem? hb

namespace Pinned

variable {sessions : Std.ExtTreeMap DeviceAddress Bytes} {trust trust' : TrustTable}
  {device : DeviceAddress}

/-- The identities on record for devices with sessions are all that matters. -/
theorem congr (h : Pinned sessions trust)
    (ht : ∀ d, d ∈ sessions → (trust'.record d).identity = (trust.record d).identity) :
    Pinned sessions trust' := by
  intro d bytes hb
  obtain ⟨record, known, hr, hk, hs⟩ := h d bytes hb
  refine ⟨record, known, hr, ?_, hs⟩
  rw [ht d (Entries.mem_of_getElem? hb)]
  exact hk

/-- A record is kept once the identity of its current session is on record. -/
theorem insert (h : ∀ d bytes, d ≠ device → sessions[d]? = some bytes → ∃ record known,
      bytes = SessionRecord.serialize record ∧ (trust.record d).identity = some known ∧
        known.SamePoint record.current.remoteIdentity)
    {record : SessionRecord} {known : PublicKey} (hk : (trust.record device).identity = some known)
    (hs : known.SamePoint record.current.remoteIdentity) :
    Pinned (sessions.insert device record.serialize) trust := by
  intro d bytes hb
  rcases Entries.of_insert hb with ⟨rfl, rfl⟩ | ⟨hne, hb⟩
  · exact ⟨record, known, rfl, hk, hs⟩
  · exact h d bytes hne hb

theorem erase (h : Pinned sessions trust) (device : DeviceAddress) :
    Pinned (sessions.erase device) trust := by
  intro d bytes hb
  exact h d bytes (Entries.of_erase hb)

theorem empty (trust : TrustTable) : Pinned ∅ trust := by
  intro d bytes hb
  rw [Std.ExtTreeMap.getElem?_empty] at hb
  cases hb

/-- What a device shows is put on record without harm to the sessions with others. -/
theorem see_of_notMem (h : Pinned sessions trust) (hd : device ∉ sessions) (identity : PublicKey) :
    Pinned sessions (trust.see (.shown device identity)) := by
  refine h.congr fun d hm => ?_
  rw [TrustTable.record_see_shown_of_ne]
  rintro rfl
  exact hd hm

/-- The sessions that are loaded are pinned. -/
theorem of_loadSession {s : Store} (h : Pinned s.sessions s.trust) {record : SessionRecord}
    (hl : s.loadSession device = .ok (some record)) :
    ∃ known, (s.trust.record device).identity = some known ∧
      known.SamePoint record.current.remoteIdentity := by
  obtain ⟨bytes, hb, hd⟩ := Store.exists_of_loadSession hl
  obtain ⟨record', known, rfl, hk, hs⟩ := h device bytes hb
  rw [SessionRecord.eq_of_deserialize_serialize hd]
  exact ⟨known, hk, hs⟩

end Pinned

section Run

variable [CipherSuite]

theorem Session.remoteIdentity_of_encrypt {s s' : Session} {plaintext : Bytes} {m : RatchetMessage}
    (h : s.encrypt plaintext = .ok m s') : s'.remoteIdentity = s.remoteIdentity := by
  unfold Session.encrypt at h
  split at h <;> cases h
  rfl

/-- A content key was wrapped by a session that is kept afterwards as the current one with its
device, and the decision on the device, the same as before, is held for the identity of that
session. -/
def WrappedWith (before after : Scene) (k : RecipientKey) : Prop :=
  ∃ key session session' previous known,
    Session.encrypt key session = .ok k.transport.message session' ∧
    k.transport.preKey = session'.pending ∧
    session'.remoteIdentity = session.remoteIdentity ∧
    after.sessions[k.recipient]? =
      some (SessionRecord.serialize { current := session', previous }) ∧
    known.SamePoint session.remoteIdentity ∧
    after.trust.record k.recipient =
      { state := before.trust.check k.recipient, identity := some known } ∧
    ∀ known', (before.trust.record k.recipient).identity = some known' → known' = known

/-- Two scenes have the same sessions with a device, and the same record of the trust in it. -/
def SameFor (device : DeviceAddress) (s t : Scene) : Prop :=
  t.sessions[device]? = s.sessions[device]? ∧ t.trust.record device = s.trust.record device

omit [CipherSuite] in
theorem SameFor.trans {device : DeviceAddress} {s t u : Scene} (h : SameFor device s t)
    (h' : SameFor device t u) : SameFor device s u :=
  ⟨h'.1.trans h.1, h'.2.trans h.2⟩

theorem WrappedWith.congr_before {s s' t : Scene} {k : RecipientKey} (h : WrappedWith s t k)
    (hs : SameFor k.recipient s' s) : WrappedWith s' t k := by
  obtain ⟨key, session, session', previous, known, he, hp, hi, hb, hk, hr, hu⟩ := h
  rw [TrustTable.check, hs.2] at hr
  rw [hs.2] at hu
  exact ⟨key, session, session', previous, known, he, hp, hi, hb, hk, hr, hu⟩

theorem WrappedWith.congr_after {s t t' : Scene} {k : RecipientKey} (h : WrappedWith s t k)
    (ht : SameFor k.recipient t t') : WrappedWith s t' k := by
  obtain ⟨key, session, session', previous, known, he, hp, hi, hb, hk, hr, hu⟩ := h
  rw [← ht.1] at hb
  rw [← ht.2] at hr
  exact ⟨key, session, session', previous, known, he, hp, hi, hb, hk, hr, hu⟩

namespace Messenger

variable {s s' t : Scene} {device : DeviceAddress}

theorem shownByBundle_eq_nil_or (device : DeviceAddress) (s : Scene) :
    shownByBundle device s = [] ∨
      device ∉ s.sessions ∧ ∃ identity, shownByBundle device s = [.shown device identity] := by
  unfold shownByBundle
  by_cases hc : s.messenger.store.containsSession device = true
  · rw [if_pos hc]
    exact .inl rfl
  · rw [if_neg hc]
    split
    · exact .inl rfl
    · split
      · exact .inl rfl
      · exact .inr ⟨fun h => hc (Std.ExtTreeMap.contains_iff_mem.mpr h), _, rfl⟩

theorem bundleFor_leaves_sessions (device : DeviceAddress) :
    Leaves Scene.sessions (bundleFor device) :=
  bundleFor_leaves (fun _ _ => rfl) (fun _ _ => rfl) device

/-- Fetching a bundle keeps sessions pinned: there is no session with its device yet. -/
theorem bundleFor_pinned (hp : Pinned s.sessions s.trust) (device : DeviceAddress) :
    Pinned (endState (bundleFor device) s).sessions (endState (bundleFor device) s).trust := by
  rw [bundleFor_leaves_sessions device s, bundleFor_trust]
  rcases shownByBundle_eq_nil_or device s with h | ⟨hd, identity, h⟩
  · rw [h]
    exact hp
  · rw [h]
    exact hp.see_of_notMem hd identity

/-- A bundle is given when there is no session, and then its identity is on record, with the
decision that stood before. -/
theorem exists_of_bundleFor_eq_ok {bundle : Option PreKeyBundle}
    (h : bundleFor device s = .ok bundle t) :
    (bundle = none ∧ t = s) ∨
      ∃ b known, bundle = some b ∧ s.messenger.store.containsSession device = false ∧
        t.trust.record device = { state := s.trust.check device, identity := some known } ∧
        known.SamePoint b.identity ∧
        ∀ known', (s.trust.record device).identity = some known' → known' = known := by
  by_cases hc : s.messenger.store.containsSession device = true
  · rw [bundleFor_of_session hc] at h
    cases h
    exact .inl ⟨rfl, rfl⟩
  · right
    cases hf : s.directory.fetchBundle device with
    | error err =>
      rw [bundleFor_of_fetch_error hc hf] at h
      cases h
    | ok fetched =>
      obtain ⟨b, directory⟩ := fetched
      rw [bundleFor_of_fetch hc hf] at h
      obtain ⟨_, t₁, hv, h⟩ := bind_eq_ok_iff.mp h
      obtain ⟨-, rfl⟩ := Action.ofExcept_eq_ok_iff.mp hv
      obtain ⟨_, t₂, ho, h⟩ := bind_eq_ok_iff.mp h
      cases h
      unfold observeIdentity at ho
      split at ho
      · next trust heq =>
        cases ho
        obtain ⟨known, hr, hs, hk⟩ := TrustTable.record_of_observe_eq_ok heq
        exact ⟨b, known, rfl, Bool.eq_false_iff.mpr hc, hr, hs, hk⟩
      · cases ho

/-- What wrapping for one device does to the session with another. -/
theorem wrapFor_sameFor (key : ContentKey) {d : DeviceAddress} (h : d ≠ device) (s : Scene) :
    SameFor device s (endState (wrapFor key d) s) := by
  have hother : Leaves (fun s => s.sessions[device]?) (wrapFor key d) := by
    refine Leaves.bind (fun s => ?_) fun bundle => ?_
    · exact congrArg (fun m => m[device]?) (bundleFor_leaves_sessions d s)
    · refine Leaves.get.bind fun s => Leaves.changeStore _ (fun _ _ => rfl) fun s a st e e' hw => ?_
      obtain ⟨record, session, -, -, -, rfl⟩ := KeyWrap.wrap_eq_ok_iff.mp hw
      change (s.sessions.insert d _)[device]? = s.sessions[device]?
      exact Entries.insert_of_ne h.symm
  refine ⟨hother s, ?_⟩
  rw [wrapFor_trust]
  rcases shownByBundle_eq_nil_or d s with hnil | ⟨-, identity, hone⟩
  · rw [hnil]
    rfl
  · rw [hone]
    exact TrustTable.record_see_shown_of_ne _ identity h

/-- The session that a content key is wrapped with is one with the identity on record, whether it
was there or is started from the bundle that was fetched. -/
theorem exists_known_of_recordFor (hp : Pinned s.sessions s.trust) {bundle : Option PreKeyBundle}
    (hb : bundleFor device s = .ok bundle t) {c : KeyWrap.Settings} {record : SessionRecord}
    {e e' : Entropy}
    (hr : KeyWrap.recordFor c t.messenger.store device bundle e = .ok record e') :
    ∃ known, t.trust.record device = { state := s.trust.check device, identity := some known } ∧
      known.SamePoint record.current.remoteIdentity ∧
      ∀ known', (s.trust.record device).identity = some known' → known' = known := by
  rcases exists_of_bundleFor_eq_ok hb with ⟨rfl, rfl⟩ | ⟨b, known, rfl, hc, hrec, hs, hk⟩
  · rcases KeyWrap.recordFor_eq_ok_iff.mp hr with ⟨hl, -⟩ | ⟨-, b, -, hnone, -⟩
    · obtain ⟨known, hk, hs⟩ := hp.of_loadSession hl
      refine ⟨known, ?_, hs, fun known' hk' => Option.some.inj (hk'.symm.trans hk)⟩
      rw [TrustTable.check, ← hk]
      rfl
    · cases hnone
  · rcases KeyWrap.recordFor_eq_ok_iff.mp hr with ⟨hl, -⟩ | ⟨-, b', session, hb', ho, rfl⟩
    · have hsessions : t.sessions = s.sessions := (bundleFor_leaves_sessions device).eq_of_ok hb
      have hmem := Store.mem_sessions_of_loadSession hl
      rw [show t.messenger.store.sessions = s.messenger.store.sessions from hsessions,
        Std.ExtTreeMap.mem_iff_contains] at hmem
      exact absurd hmem (Bool.eq_false_iff.mp hc)
    · cases hb'
      refine ⟨known, hrec, ?_, hk⟩
      rw [SessionRecord.ofSession, KeyWrap.outbound_remoteIdentity ho]
      exact hs

/-- A content key is wrapped by a session with the identity on record, and sessions stay pinned. -/
theorem wrapped_of_wrapFor {key : ContentKey} {transport : KeyTransport}
    (hp : Pinned s.sessions s.trust) (h : wrapFor key device s = .ok transport t) :
    WrappedWith s t { recipient := device, transport } ∧ Pinned t.sessions t.trust := by
  obtain ⟨bundle, t₁, hb, h⟩ := bind_eq_ok_iff.mp h
  have hp₁ := bundleFor_pinned hp device
  rw [endState_of_ok hb] at hp₁
  obtain ⟨_, t₂, hget, h⟩ := bind_eq_ok_iff.mp h
  cases hget
  obtain ⟨st, e, hw, rfl⟩ := Action.changeStore_eq_ok_iff.mp h
  obtain ⟨record, session', hr, he, hpre, rfl⟩ := KeyWrap.wrap_eq_ok_iff.mp hw
  have hi := Session.remoteIdentity_of_encrypt he
  obtain ⟨known, hrecord, hsame, hfirst⟩ := exists_known_of_recordFor hp hb hr
  refine ⟨⟨_, record.current, session', record.previous, known, he, hpre, hi, ?_, hsame, hrecord,
    hfirst⟩, ?_⟩
  · exact Std.ExtTreeMap.getElem?_insert_self
  · refine Pinned.insert (fun d bytes _ hd => hp₁ d bytes hd) (?_ : _ = some known) ?_
    · exact congrArg TrustRecord.identity hrecord
    · rw [hi]
      exact hsame

theorem wrapFor_pinned (hp : Pinned s.sessions s.trust) (key : ContentKey)
    (device : DeviceAddress) :
    Pinned (endState (wrapFor key device) s).sessions (endState (wrapFor key device) s).trust := by
  cases h : wrapFor key device s with
  | ok transport t =>
    rw [endState_of_ok h]
    exact (wrapped_of_wrapFor hp h).2
  | error err t =>
    rw [endState_of_error h]
    -- a failure stores no session, but the identity of a bundle may have been noted
    have hp₁ := bundleFor_pinned hp device
    rcases bind_eq_error_iff.mp h with hb | ⟨bundle, t₁, hb, hw⟩
    · rw [endState_of_error hb] at hp₁
      exact hp₁
    · rw [endState_of_ok hb] at hp₁
      rcases bind_eq_error_iff.mp hw with hget | ⟨_, t₂, hget, hw⟩
      · cases hget
      · cases hget
        obtain ⟨e, -, rfl⟩ := Action.changeStore_eq_error_iff.mp hw
        exact hp₁

theorem wrapAll_sameFor (key : ContentKey) {devices : List DeviceAddress}
    (h : device ∉ devices) (s : Scene) : SameFor device s (endState (wrapAll key devices) s) := by
  induction devices generalizing s with
  | nil => exact ⟨rfl, rfl⟩
  | cons d rest ih =>
    rw [endState_wrapAll_cons]
    have hd : d ≠ device := fun hd => h (hd ▸ List.mem_cons_self)
    exact (wrapFor_sameFor key hd s).trans (ih (fun hm => h (List.mem_cons_of_mem _ hm)) _)

/-- Every key is wrapped by a session with the identity that the decision on its device is held
for. -/
theorem wrapped_of_wrapAll {key : ContentKey} {devices : List DeviceAddress}
    {keys : List RecipientKey} {failures : List DeviceFailure} (hp : Pinned s.sessions s.trust)
    (hn : devices.Nodup) (h : wrapAll key devices s = .ok (keys, failures) t) :
    ∀ k ∈ keys, WrappedWith s t k := by
  induction devices generalizing s keys failures with
  | nil =>
    cases h
    exact fun k hk => absurd hk List.not_mem_nil
  | cons device rest ih =>
    obtain ⟨hd, hn⟩ := List.nodup_cons.mp hn
    have hp₁ := wrapFor_pinned hp key device
    have hsame := fun {d} (h : device ≠ d) => wrapFor_sameFor (d := device) key h s
    have others : ∀ {t₁ : Scene} {keys failures}, endState (wrapFor key device) s = t₁ →
        wrapAll key rest t₁ = .ok (keys, failures) t → ∀ k ∈ keys, WrappedWith s t k := by
      rintro t₁ keys failures rfl hr k hk
      have hm := (recipients_sublist_of_wrapAll hr).subset (List.mem_map_of_mem hk)
      exact (ih hp₁ hn hr k hk).congr_before (hsame fun heq => hd (heq ▸ hm))
    cases hw : wrapFor key device s with
    | ok transport t₁ =>
      rw [wrapAll_cons_of_ok rest hw] at h
      obtain ⟨⟨keys', failures'⟩, hr, hk⟩ := map_eq_ok_iff.mp h
      cases hk
      have hrest := wrapAll_sameFor key hd t₁
      rw [endState_of_ok hr] at hrest
      refine List.forall_mem_cons.mpr ⟨?_, others (endState_of_ok hw) hr⟩
      exact (wrapped_of_wrapFor hp hw).1.congr_after hrest
    | error err t₁ =>
      rw [wrapAll_cons_of_error rest hw] at h
      obtain ⟨⟨keys', failures'⟩, hr, hk⟩ := map_eq_ok_iff.mp h
      cases hk
      exact others (endState_of_error hw) hr

/-- The session that a key is unwrapped with is kept as the current one, and the identity that its
sender shows is the one in that session. -/
theorem exists_kept_of_unwrapFrom {sender : DeviceAddress} {transport : KeyTransport}
    {u : KeyWrap.Unwrapped} (h : unwrapFrom sender transport s = .ok u t) :
    ∃ record, t.sessions = s.sessions.insert sender (SessionRecord.serialize record) ∧
      record.current.remoteIdentity = u.identity := by
  obtain ⟨st, e, hu, rfl⟩ := unwrapFrom_eq_ok_iff.mp h
  obtain ⟨existing, reading, -, hr, -, hi, -, -, rfl⟩ := KeyWrap.exists_of_unwrap_eq_ok hu
  refine ⟨reading.record, ?_, (hi.trans (KeyWrap.readTransport_identity hr)).symm⟩
  split
  · exact KeyWrap.withoutConsumed_sessions _ _
  · exact KeyWrap.withoutConsumed_sessions _ _

/-- Reading keeps sessions pinned: the identity of the session that becomes current is noted,
whichever session that is. -/
theorem read_pinned (hp : Pinned s.sessions s.trust) (sender : DeviceAddress)
    (envelope : Envelope) :
    Pinned (endState (read sender envelope) s).sessions
      (endState (read sender envelope) s).trust := by
  rw [endState_read]
  split
  · split
    · exact hp
    · next transport =>
      split
      · next h =>
        obtain ⟨e, -, rfl⟩ := exists_of_unwrapFrom_eq_error h
        exact hp
      · next unwrapped t h =>
        have htrust : (endState (observeIdentity sender unwrapped.identity) t).trust =
            s.trust.see (.shown sender unwrapped.identity) := by
          rw [observeIdentity_trust, unwrapFrom_trust h]
        have hobserve : (endState (observeIdentity sender unwrapped.identity) t).sessions =
            t.sessions := observeIdentity_leaves (fun _ _ => rfl) sender unwrapped.identity t
        obtain ⟨record, hsessions, hi⟩ := exists_kept_of_unwrapFrom h
        rw [htrust, hobserve, hsessions]
        obtain ⟨known, hk, hsame⟩ := s.trust.exists_key_of_see_shown sender unwrapped.identity
        rw [← hi] at hsame
        refine Pinned.insert (fun d bytes hd hb => ?_) hk hsame
        rw [TrustTable.record_see_shown_of_ne _ _ (Ne.symm hd)]
        exact hp d bytes hb
  · exact hp

omit [CipherSuite] in
/-- What upkeep does not change. -/
theorem ignoresUpkeep_sessions_trust : IgnoresUpkeep fun s : Scene => (s.sessions, s.trust) :=
  ⟨fun _ _ _ => rfl, fun _ _ => rfl, fun _ _ => rfl, fun _ _ => rfl, fun _ _ => rfl⟩

omit [CipherSuite] in
theorem pinned_of_leaves {α : Type} {x : Action α}
    (hx : Leaves (fun s : Scene => (s.sessions, s.trust)) x) (hp : Pinned s.sessions s.trust) :
    Pinned (endState x s).sessions (endState x s).trust := by
  obtain ⟨hs, ht⟩ := Prod.mk.inj (hx s)
  rw [hs, ht]
  exact hp

/-- A device that starts afresh has no sessions. If it cannot, its store is as it was. -/
theorem store_of_regenerate (s : Scene) :
    (endState regenerate s).messenger.store = s.messenger.store ∨
      (endState regenerate s).sessions = ∅ := by
  unfold regenerate
  rw [endState_bind_get]
  cases h : Action.changeStore (fun store => do
      return ((), ← store.reprovision s.messenger.settings.maxOneTimePreKeys s.now)) s with
  | error err t =>
    left
    rw [endState_bind_of_error h]
    obtain ⟨e, -, rfl⟩ := Action.changeStore_eq_error_iff.mp h
    rfl
  | ok _ t =>
    right
    rw [endState_bind_of_ok h]
    obtain ⟨st, e, hr, rfl⟩ := Action.changeStore_eq_ok_iff.mp h
    obtain ⟨st', e₁, hr, hst⟩ := bind_eq_ok_iff.mp hr
    cases hst
    have hpublish : Leaves Scene.sessions
        (modify (·.setNeedsPublishing true) >>= fun _ => publishBundle) :=
      Leaves.bind (Leaves.modify fun _ => rfl) fun _ => publishBundle_leaves
        ⟨fun _ _ => rfl, fun _ _ => rfl, fun _ _ => rfl, fun _ _ => rfl⟩
    exact (hpublish _).trans (Store.of_reprovision_eq_ok hr).2

theorem regenerate_pinned (hp : Pinned s.sessions s.trust) :
    Pinned (endState regenerate s).sessions (endState regenerate s).trust := by
  rw [regenerate_leaves_trust s]
  rcases store_of_regenerate s with h | h
  · rw [Scene.sessions, h]
    exact hp
  · rw [h]
    exact Pinned.empty _

theorem encryptFor_pinned (hp : Pinned s.sessions s.trust) (recipients : List Account)
    (plaintext : Bytes) (allowed : DeviceSet) :
    Pinned (endState (encryptFor recipients plaintext allowed) s).sessions
      (endState (encryptFor recipients plaintext allowed) s).trust :=
  encryptFor_preserves (p := fun t => Pinned t.sessions t.trust) (fun _ _ ht => ht)
    (fun key device _ ht => wrapFor_pinned ht key device) recipients plaintext allowed hp

/-- An encryption that succeeds wraps its content key by sessions with the identities that the
decisions are held for. -/
theorem wrapped_of_encryptFor (hp : Pinned s.sessions s.trust) {recipients : List Account}
    {plaintext : Bytes} {allowed : DeviceSet} {encryption : Encryption}
    (h : encryptFor recipients plaintext allowed s = .ok encryption t) :
    ∀ k ∈ encryption.envelope.keys, WrappedWith s t k := by
  obtain ⟨verdict, key, payload, t₁, keys, failures, hprepare, hw, rfl⟩ :=
    exists_of_encryptFor_eq_ok h
  have hview : Leaves (fun s : Scene => (s.sessions, s.trust))
      (prepare recipients plaintext allowed) :=
    prepare_leaves (fun _ _ => rfl) recipients plaintext allowed
  have hl := hview.eq_of_ok hprepare
  obtain ⟨hs, ht⟩ := Prod.mk.inj hl
  have hp₁ : Pinned t₁.sessions t₁.trust := by
    rw [hs, ht]
    exact hp
  intro k hk
  refine (wrapped_of_wrapAll hp₁ verdict.accepted.nodup_toList hw k hk).congr_before ⟨?_, ?_⟩
  · rw [hs]
  · rw [ht]

end Messenger

/-- Every request keeps sessions pinned, whether it succeeds or fails. -/
theorem Request.perform_pinned (request : Request) (s : Scene) (hp : Pinned s.sessions s.trust) :
    Pinned (request.perform s).sessions (request.perform s).trust := by
  have hv := Messenger.ignoresUpkeep_sessions_trust
  cases request with
  | encryptFor recipients plaintext allowed =>
    exact Messenger.encryptFor_pinned hp recipients plaintext allowed
  | decrypt sender envelope =>
    rw [Request.perform, Messenger.decrypt_snd]
    exact Messenger.read_pinned hp sender envelope
  | decideTrust device state =>
    refine hp.congr fun d _ => ?_
    change ((s.trust.decide device state).record d).identity = _
    rw [TrustTable.decide, TrustTable.record_update]
    split
    · next hd => rw [hd]
    · rfl
  | resetSession device => exact hp.erase device
  | publishBundle =>
    exact Messenger.pinned_of_leaves (Messenger.publishBundle_leaves hv.publishing) hp
  | publishIfNeeded =>
    exact Messenger.pinned_of_leaves (Messenger.publishIfNeeded_leaves hv.publishing) hp
  | purgeDevices => exact Messenger.pinned_of_leaves (Messenger.purgeDevices_leaves hv.directory) hp
  | rotate => exact Messenger.pinned_of_leaves (Messenger.rotate_leaves hv) hp
  | rotateIfDue => exact Messenger.pinned_of_leaves (Messenger.rotateIfDue_leaves hv) hp
  | prune => exact Messenger.pinned_of_leaves (Messenger.prune_leaves hv) hp
  | regenerate => exact Messenger.regenerate_pinned hp
  | surroundings directory now entropy => exact hp

/-- **Sessions are pinned to the identity on record.** Whatever a messenger was asked to do since it
was set up, what it keeps for a device are sessions, and the current one is with the identity that
the trust record of the device holds. So a content key is wrapped by a session with the identity
that the decision on the device is held for, and neither the decision nor an identity on record
changes on the way. -/
theorem Scene.sessions_pinned {start : Scene} (hstart : Provisioned start)
    (requests : List Request) :
    (∀ device bytes, (start.run requests).sessions[device]? = some bytes → ∃ record known,
      bytes = SessionRecord.serialize record ∧
      ((start.run requests).trust.record device).identity = some known ∧
      known.SamePoint record.current.remoteIdentity ∧
      (bytes.length < UInt64.size →
        (start.run requests).messenger.store.loadSession device = .ok (some record)) ∧
      ∀ record', (start.run requests).messenger.store.loadSession device = .ok (some record') →
        record' = record) ∧
    ∀ recipients plaintext allowed encryption s',
      Messenger.encryptFor recipients plaintext allowed (start.run requests) = .ok encryption s' →
      ∀ k ∈ encryption.envelope.keys, WrappedWith (start.run requests) s' k := by
  have hp : Pinned (start.run requests).sessions (start.run requests).trust := by
    refine run_induction (p := fun s => Pinned s.sessions s.trust)
      (fun request s => request.perform_pinned s) ?_ requests
    rw [show start.sessions = ∅ from hstart.store.2]
    exact Pinned.empty _
  refine ⟨fun device bytes hb => ?_, fun recipients plaintext allowed encryption s' h =>
    Messenger.wrapped_of_encryptFor hp h⟩
  obtain ⟨record, known, rfl, hk, hs⟩ := hp device bytes hb
  have hload : (start.run requests).messenger.store.loadSession device =
      (SessionRecord.deserialize record.serialize).map some := by
    unfold Store.loadSession
    rw [show (start.run requests).messenger.store.sessions[device]? = _ from hb]
  refine ⟨record, known, rfl, hk, hs, fun hlt => ?_, fun record' hl => ?_⟩
  · rw [hload, SessionRecord.deserialize_serialize hlt]
    rfl
  · rw [hload] at hl
    cases hd : SessionRecord.deserialize record.serialize with
    | error err =>
      rw [hd] at hl
      cases hl
    | ok r =>
      rw [hd] at hl
      cases hl
      exact SessionRecord.eq_of_deserialize_serialize hd

end Run

section FirstContact

attribute [local instance] CipherSuite.transparent

namespace Scene

/-- A first message to a device that was just set up, from another one. -/
def firstContact? (start : Scene) : Option Envelope :=
  match newcomer? ⟨"bob", 1⟩, start.messenger.store.signedPreKeys.current? with
  | some bob, .ok signed =>
    let send : Action Envelope := do
      let bundle := (Messenger.bundle start.messenger.store signed).pick none
      let key ← Action.draw ContentKey.generate
      let payload ← Action.draw (key.encrypt [1, 2, 3] bob.messenger.address)
      let recipient := start.messenger.address
      let transport ← Messenger.wrap key recipient (some bundle)
      return {
        sender := bob.messenger.address
        keys := [{ recipient, transport }]
        payload
        hints := .standard }
    match send bob with
    | .ok envelope _ => some envelope
    | .error _ _ => none
  | _, _ => none

/-- After a first message was read there are sessions, pinned to the identity of its sender. -/
theorem sessions_pinned_of_firstContact :
    ∃ start envelope, newcomer? ⟨"alice", 1⟩ = some start ∧ start.firstContact? = some envelope ∧
      ∃ record known,
        (start.run [.decrypt ⟨"bob", 1⟩ envelope]).sessions[(⟨"bob", 1⟩ : DeviceAddress)]? =
          some (SessionRecord.serialize record) ∧
        ((start.run [.decrypt ⟨"bob", 1⟩ envelope]).trust.record ⟨"bob", 1⟩).identity =
          some known ∧
        known.SamePoint record.current.remoteIdentity := by
  have hstart : (newcomer? ⟨"alice", 1⟩).isSome := by decide +kernel
  have henvelope : (((newcomer? ⟨"alice", 1⟩).get hstart).firstContact?).isSome := by
    decide +kernel +revert
  have hkept : (((newcomer? ⟨"alice", 1⟩).get hstart).run [.decrypt ⟨"bob", 1⟩
      ((((newcomer? ⟨"alice", 1⟩).get hstart).firstContact?).get henvelope)]).sessions[
        (⟨"bob", 1⟩ : DeviceAddress)]?.isSome := by
    decide +kernel +revert
  obtain ⟨bytes, hbytes⟩ := Option.isSome_iff_exists.mp hkept
  obtain ⟨record, known, rfl, hknown, hsame, -⟩ :=
    (sessions_pinned (provisioned_of_newcomer (Option.some_get hstart).symm) _).1 _ _ hbytes
  exact ⟨_, _, (Option.some_get hstart).symm, (Option.some_get henvelope).symm, record, known,
    hbytes, hknown, hsame⟩

end Scene

end FirstContact

end MultiDevice
