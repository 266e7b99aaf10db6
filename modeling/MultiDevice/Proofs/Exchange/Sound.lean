import MultiDevice.Proofs.Entries
import MultiDevice.Proofs.Exchange.Basic
import MultiDevice.Proofs.Exchange.Thread
import MultiDevice.Proofs.KeyWrap.Outcome
import MultiDevice.Proofs.Session.Stored

/-!
# How two devices fit together

Each of two devices may have started a thread with the other. What they keep and what was published
fits together: both ends of a thread are in step, a device that did not build its end yet can still
build it, and every envelope carries a message of one of the threads.

## Main definitions

* `Exchange.sessionsOf`: the sessions of a device in both threads
* `Exchange.Sound`: the keys, the bundles and the threads fit together
* `Exchange.Keeps`: a device has stored its sessions in both threads
* `Exchange.Logged`: what was sent and read is accounted for by the threads
* `Exchange.Acts`: what a device may do without harm to the threads

## Main results

* `Exchange.Sound.acts`: what a device does apart from the threads keeps everything fitting
* `Exchange.New.sound`: devices that were just set up fit together
-/

namespace MultiDevice

/-- The part that a device plays in the thread that `p` started. -/
def Party.role (p w : Party) : Party := if w = p then .first else .second

@[simp] theorem Party.role_self (p : Party) : p.role p = .first := if_pos rfl

@[simp] theorem Party.role_peer (p : Party) : p.role p.peer = .second := if_neg (peer_ne p)

@[simp] theorem Party.role_of_peer (w : Party) : w.peer.role w = .second :=
  if_neg fun h => peer_ne w h.symm

theorem Party.eq_of_role_eq_first {p w : Party} (h : p.role w = .first) : p = w := by
  cases p <;> cases w <;> simp [role] at h ⊢

theorem Party.peer_role (p w : Party) : (p.role w).peer = p.role w.peer := by
  cases p <;> cases w <;> rfl

/-- The threads of two devices, by the one that started them. -/
abbrev Threads : Type := Party → Option Thread

namespace Threads

variable {thread : Threads} {w p : Party} {t t' : Thread}

/-- The threads with that of one device replaced. -/
def set (thread : Threads) (p : Party) (t : Thread) : Threads := Function.update thread p (some t)

@[simp] theorem set_self (thread : Threads) (p : Party) (t : Thread) : thread.set p t p = some t :=
  Function.update_self ..

@[simp] theorem set_peer (thread : Threads) (p : Party) (t : Thread) :
    thread.set p t p.peer = thread p.peer := Function.update_of_ne (Party.peer_ne p) ..

/-- The session of a device in the thread that `p` started. The responder has one once it built its
end. -/
def sessionIn (thread : Threads) (w p : Party) : Option Session :=
  (thread p).bind fun t => if p = w ∨ t.built = true then some (t.session (p.role w)) else none

/-- The sessions of a device. -/
def sessionsOf (thread : Threads) (w : Party) : List Session :=
  (thread.sessionIn w w).toList ++ (thread.sessionIn w w.peer).toList

/-- The thread that `p` started, if there is one, was not built at the other end. -/
def Unbuilt (thread : Threads) (p : Party) : Prop := ∀ t, thread p = some t → t.built = false

theorem sessionIn_eq_some (ht : thread p = some t) (hp : p = w ∨ t.built = true) :
    thread.sessionIn w p = some (t.session (p.role w)) := by
  rw [sessionIn, ht, Option.bind_some, if_pos hp]

theorem sessionIn_eq_none (ht : thread p = some t) (hp : p ≠ w) (hb : t.built = false) :
    thread.sessionIn w p = none := by
  rw [sessionIn, ht, Option.bind_some, if_neg]
  rintro (h | h)
  · exact hp h
  · rw [hb] at h
    cases h

theorem exists_of_sessionIn {s : Session} (h : thread.sessionIn w p = some s) :
    ∃ t, thread p = some t ∧ (p = w ∨ t.built = true) ∧ s = t.session (p.role w) := by
  obtain ⟨t, ht, h⟩ := Option.bind_eq_some_iff.mp h
  split at h
  · next hp =>
    cases h
    exact ⟨t, ht, hp, rfl⟩
  · cases h

/-- The sessions of a device, that in the thread of `p` first. -/
theorem sessionsOf_perm (thread : Threads) (w p : Party) :
    (thread.sessionsOf w).Perm
      ((thread.sessionIn w p).toList ++ (thread.sessionIn w p.peer).toList) := by
  by_cases hp : p = w
  · rw [hp]
    exact .refl _
  · rw [Party.eq_peer_of_ne hp, Party.peer_peer]
    exact List.perm_append_comm

theorem mem_sessionsOf_iff {s : Session} : s ∈ thread.sessionsOf w ↔
    ∃ p t, thread p = some t ∧ (p = w ∨ t.built = true) ∧ s = t.session (p.role w) := by
  constructor
  · intro hs
    rcases List.mem_append.mp hs with hs | hs
    · exact ⟨w, exists_of_sessionIn (Option.mem_toList.mp hs)⟩
    · exact ⟨w.peer, exists_of_sessionIn (Option.mem_toList.mp hs)⟩
  · rintro ⟨p, t, ht, hp, rfl⟩
    refine (thread.sessionsOf_perm w p).mem_iff.mpr (List.mem_append_left _ ?_)
    rw [sessionIn_eq_some ht hp]
    exact List.mem_singleton_self _

theorem session_mem_sessionsOf (ht : thread p = some t) (hp : p = w ∨ t.built = true) :
    t.session (p.role w) ∈ thread.sessionsOf w := mem_sessionsOf_iff.mpr ⟨p, t, ht, hp, rfl⟩

theorem length_sessionsOf_le (thread : Threads) (w : Party) : (thread.sessionsOf w).length ≤ 2 := by
  rw [sessionsOf, List.length_append]
  exact Nat.add_le_add (Option.length_toList_le ..) (Option.length_toList_le ..)

/-- A device has few enough sessions that none is dropped. -/
theorem length_le_archiveLimit {sessions : List Session}
    (h : sessions.Perm (thread.sessionsOf w)) : sessions.length ≤ SessionRecord.archiveLimit := by
  rw [h.length_eq]
  exact Nat.le_trans (thread.length_sessionsOf_le w) (by decide)

theorem sessionIn_set_peer (thread : Threads) (w p : Party) (t : Thread) :
    (thread.set p t).sessionIn w p.peer = thread.sessionIn w p.peer := by
  rw [sessionIn, set_peer, sessionIn]

theorem unbuilt_set_peer (thread : Threads) (p : Party) (t : Thread) :
    (thread.set p t).Unbuilt p.peer ↔ thread.Unbuilt p.peer := by
  rw [Unbuilt, set_peer, Unbuilt]

theorem unbuilt_set_self (thread : Threads) (p : Party) (t : Thread) :
    (thread.set p t).Unbuilt p ↔ t.built = false := by
  rw [Unbuilt, set_self]
  exact ⟨fun h => h t rfl, fun h t' ht => Option.some.inj ht ▸ h⟩

/-- A session takes the place of the one that a device had in the same thread. -/
theorem perm_sessionsOf_set {s : Session} {others : List Session} (ht : thread p = some t)
    (hp : p = w ∨ t.built = true) (hp' : p = w ∨ t'.built = true)
    (h : (t.session (p.role w) :: others).Perm (thread.sessionsOf w))
    (hs : s = t'.session (p.role w)) :
    (s :: others).Perm ((thread.set p t').sessionsOf w) := by
  have hold := h.trans (thread.sessionsOf_perm w p)
  rw [sessionIn_eq_some ht hp] at hold
  refine .trans ?_ ((thread.set p t').sessionsOf_perm w p).symm
  rw [sessionIn_eq_some (thread.set_self p t') hp', sessionIn_set_peer, hs]
  exact hold.cons_inv.cons _

/-- A session joins those that a device has when its end of a thread comes into being. -/
theorem perm_sessionsOf_insert {s : Session} {others : List Session}
    (hnone : thread.sessionIn w p = none) (hp : p = w ∨ t.built = true)
    (h : others.Perm (thread.sessionsOf w)) (hs : s = t.session (p.role w)) :
    (s :: others).Perm ((thread.set p t).sessionsOf w) := by
  have hold := h.trans (thread.sessionsOf_perm w p)
  rw [hnone] at hold
  refine .trans ?_ ((thread.set p t).sessionsOf_perm w p).symm
  rw [sessionIn_eq_some (thread.set_self p t) hp, sessionIn_set_peer, hs]
  exact hold.cons _

/-- What leaves the session of a device in one thread alone leaves all its sessions alone. -/
theorem sessionsOf_set (h : (thread.set p t).sessionIn w p = thread.sessionIn w p) :
    (thread.set p t).sessionsOf w = thread.sessionsOf w := by
  by_cases hw : p = w
  · subst hw
    rw [sessionsOf, h, sessionIn_set_peer, sessionsOf]
  · have hpeer := sessionIn_set_peer thread w p t
    rw [Party.eq_peer_of_ne hw] at h hpeer ⊢
    rw [Party.peer_peer] at hpeer
    rw [sessionsOf, h, hpeer, sessionsOf]

/-- A device whose end of a thread stays what it is keeps its sessions. -/
theorem sessionsOf_set_of_session_eq (ht : thread p = some t)
    (hs : t'.session (p.role w) = t.session (p.role w))
    (hp : (p = w ∨ t'.built = true) ↔ (p = w ∨ t.built = true)) :
    (thread.set p t').sessionsOf w = thread.sessionsOf w := by
  refine sessionsOf_set ?_
  rw [sessionIn, sessionIn, thread.set_self, ht, Option.bind_some, Option.bind_some, hs]
  simp only [hp]

end Threads

namespace Exchange

variable [CipherSuite] {e₀ : Entropy} {c : Exchange} {thread : Threads} {w p : Party} {t : Thread}

/-- A thread between the devices. While the responder did not build its end, it builds the right one
from the header, unless the signed pre-key that the header names was dropped. -/
structure Joins (e₀ : Entropy) (c : Exchange) (p : Party) (t : Thread) : Prop where
  sound : t.Sound e₀ c.entropy
  initiator : t.header.identity = (c.store p).identity.publicKey
  responder : t.responder = (c.store p.peer).identity.publicKey
  number : t.built = false →
    t.header.signedPreKeyId.toNat < (c.store p.peer).signedPreKeys.nextId.toNat
  inbound : t.built = false →
    ((c.store p.peer).signedPreKeys.get? t.header.signedPreKeyId).isSome = true →
      KeyWrap.inbound (c.messenger p.peer).settings.keyWrap (c.store p.peer) t.header =
        .ok (t.session .second)

/-- The keys of both devices, the bundles and the threads fit together. -/
structure Sound (e₀ : Entropy) (c : Exchange) (thread : Threads) : Prop where
  entropy : Entropy.Later e₀ c.entropy
  address : ∀ w : Party, c.address w.peer ≠ c.address w
  identity : ∀ w : Party, (c.store w.peer).identity.publicKey ≠ (c.store w).identity.publicKey
  info : ∀ w : Party, (c.messenger w.peer).settings.info = (c.messenger w).settings.info
  ring : ∀ w : Party, (c.store w).signedPreKeys.Genuine e₀ c.entropy.drawn
  pool : ∀ w : Party, thread.Unbuilt w.peer → (c.messenger w).PoolFull
  bundles : ∀ (d : DeviceAddress) (b : DeviceBundle), c.directory.bundles[d]? = some b →
    ∃ w : Party, d = c.address w ∧
      Offers e₀ c.entropy.drawn (c.store w) (thread.Unbuilt w.peer) b
  sessions : ∀ (w : Party) (d : DeviceAddress) (bytes : Bytes),
    (c.store w).sessions[d]? = some bytes → d = c.address w.peer
  joins : ∀ (p : Party) (t : Thread), thread p = some t → c.Joins e₀ p t
  baseKey : ∀ (p : Party) (t t' : Thread), thread p = some t → thread p.peer = some t' →
    ¬ t.header.baseKey.SamePoint t'.header.baseKey

/-- A device has stored its sessions in both threads. -/
def Keeps (c : Exchange) (thread : Threads) (w : Party) : Prop :=
  ∃ existing : Option SessionRecord,
    (c.store w).sessions[c.address w.peer]? = existing.map SessionRecord.serialize ∧
      (existing.elim [] SessionRecord.sessions).Perm (thread.sessionsOf w)

/-- The content key of an envelope from `w` is a message of the thread that `p` started. -/
structure Carries (c : Exchange) (w : Party) (x : Sent) (transport : KeyTransport) (p : Party)
    (t : Thread) (key : ContentKey) : Prop where
  baseKey : x.baseKey = some t.header.baseKey
  sent : (key.bytes.toList, transport.message) ∈ t.talk.sent (p.role w)
  payload : key.decrypt x.envelope.payload (c.address w) = .ok x.plaintext
  header : ∀ h, transport.preKey = some h → p = w ∧ h = t.header
  built : transport.preKey = none → t.built = true

/-- What was sent and read is accounted for by the threads. -/
structure Logged (c : Exchange) (thread : Threads) : Prop where
  sender : ∀ (w : Party) (x : Sent), x ∈ c.sent w → x.envelope.sender = c.address w
  carried : ∀ (w : Party) (x : Sent) (transport : KeyTransport), x ∈ c.sent w →
    x.envelope.keyFor (c.address w.peer) = some transport →
      ∃ p t key, thread p = some t ∧ c.Carries w x transport p t key
  unique : ∀ (w : Party) (x y : Sent) (transport transport' : KeyTransport), x ∈ c.sent w →
    y ∈ c.sent w → x.envelope.keyFor (c.address w.peer) = some transport →
    y.envelope.keyFor (c.address w.peer) = some transport' →
    transport.message = transport'.message → x.envelope = y.envelope
  read : ∀ (w p : Party) (t : Thread) (m : RatchetMessage), thread p = some t →
    m ∈ t.talk.read (p.role w) → ∃ x transport, x ∈ c.sent w.peer ∧ x.envelope ∈ c.received w ∧
      x.envelope.keyFor (c.address w) = some transport ∧ transport.message = m

/-- The devices fit together, and so do their stored sessions and the log. -/
structure InStep (e₀ : Entropy) (c : Exchange) (thread : Threads) : Prop where
  sound : c.Sound e₀ thread
  keeps : ∀ w, c.Keeps thread w
  logged : c.Logged thread

/-- Each end of a thread is agreed with the identity of the other device. -/
theorem Joins.remoteIdentity (h : c.Joins e₀ p t) (w : Party) :
    (t.session (p.role w)).remoteIdentity = (c.store w.peer).identity.publicKey := by
  by_cases hw : w = p
  · subst hw
    rw [Party.role_self]
    exact h.responder
  · rw [Party.eq_peer_of_ne hw, Party.role_peer, Party.peer_peer]
    exact h.initiator

theorem Joins.congr (h : c.Joins e₀ p t) {c' : Exchange} (hm : c'.messenger = c.messenger)
    (he : c'.entropy = c.entropy) : c'.Joins e₀ p t := by
  obtain ⟨messenger, directory, now, entropy, sent, received⟩ := c'
  subst hm he
  exact ⟨h.sound, h.initiator, h.responder, h.number, h.inbound⟩

/-- What was sent and read, and what the clock shows, has no part in this. -/
theorem Sound.congr (h : c.Sound e₀ thread) {c' : Exchange} (hm : c'.messenger = c.messenger)
    (hd : c'.directory = c.directory) (he : c'.entropy = c.entropy) : c'.Sound e₀ thread := by
  have hjoins := fun p t ht => (h.joins p t ht).congr hm he
  obtain ⟨messenger, directory, now, entropy, sent, received⟩ := c'
  subst hm hd he
  exact ⟨h.entropy, h.address, h.identity, h.info, h.ring, h.pool, h.bundles, h.sessions, hjoins,
    h.baseKey⟩

omit [CipherSuite] in
theorem Keeps.congr (h : c.Keeps thread w) {c' : Exchange} (hm : c'.messenger = c.messenger) :
    c'.Keeps thread w := by
  obtain ⟨messenger, directory, now, entropy, sent, received⟩ := c'
  subst hm
  exact h

/-! ## What a device does -/

/-- What a device does that keeps what the threads rely on: it keeps its identity and what the
numbers of its pre-keys refer to, and publishes what it keeps. It makes at most `n` new signed
pre-keys, and uses up one-time pre-keys only after the thread of the other device was built. -/
structure Acts (e₀ : Entropy) (n : Nat) (c : Exchange) (thread : Threads) (w : Party) (s : Scene) :
    Prop where
  address : s.messenger.address = c.address w
  settings : s.messenger.settings = (c.messenger w).settings
  identity : s.messenger.store.identity = (c.store w).identity
  sessions : ∀ (d : DeviceAddress) (bytes : Bytes),
    s.messenger.store.sessions[d]? = some bytes → d = c.address w.peer
  entropy : Entropy.Later c.entropy s.entropy
  ring : s.messenger.store.signedPreKeys.Genuine e₀ s.entropy.drawn
  later : (c.store w).signedPreKeys.Later s.messenger.store.signedPreKeys
  nextId : s.messenger.store.signedPreKeys.nextId.toNat ≤
    (c.store w).signedPreKeys.nextId.toNat + n
  pool : thread.Unbuilt w.peer →
    s.messenger.store.oneTimePreKeys = (c.store w).oneTimePreKeys
  bundles : ∀ (d : DeviceAddress) (b : DeviceBundle), s.directory.bundles[d]? = some b →
    (∃ b', c.directory.bundles[d]? = some b' ∧ b'.HandsOut b) ∨
      d = c.address w ∧ Offers e₀ s.entropy.drawn s.messenger.store (thread.Unbuilt w.peer) b

theorem Sound.acts_of_tended (h : c.Sound e₀ thread) {n : Nat} {s : Scene}
    (hs : Tended e₀ n (c.scene w) s) : c.Acts e₀ n thread w s where
  address := hs.address
  settings := hs.settings
  identity := hs.identity
  sessions d bytes hb := h.sessions w d bytes (hs.sessions ▸ hb)
  entropy := hs.entropy
  ring := hs.ring
  later := hs.later
  nextId := hs.nextId
  pool hu := hs.pool (h.pool w hu)
  bundles d b hb := by
    rcases hs.bundles d b hb with hb | ⟨hd, ho⟩
    · exact .inl hb
    · exact .inr ⟨hd, ho.mono rfl (.refl _) (Nat.le_refl _) fun hu => ⟨h.pool w hu, rfl⟩⟩

/-- The log depends on the addresses and on what was sent and read. -/
theorem Logged.congr (h : c.Logged thread) {c' : Exchange} (ha : c'.address = c.address)
    (hs : c'.sent = c.sent) (hr : c'.received = c.received) : c'.Logged thread := by
  refine ⟨?_, ?_, ?_, ?_⟩
  · rw [ha, hs]
    exact h.sender
  · rw [ha, hs]
    intro v x transport hx hkey
    obtain ⟨p, t, key, ht, hc⟩ := h.carried v x transport hx hkey
    refine ⟨p, t, key, ht, hc.baseKey, hc.sent, ?_, hc.header, hc.built⟩
    rw [ha]
    exact hc.payload
  · rw [ha, hs]
    exact h.unique
  · rw [ha, hs, hr]
    exact h.read

section Acts

variable {n : Nat} {s : Scene} (hs : c.Acts e₀ n thread w s)
include hs

theorem Acts.nextId_le (v : Party) : ((c.after w s).store v).signedPreKeys.nextId.toNat ≤
    (c.store v).signedPreKeys.nextId.toNat + if w = v then n else 0 := by
  by_cases hv : v = w
  · subst hv
    rw [after_store_self, if_pos rfl]
    exact hs.nextId
  · rw [Party.eq_peer_of_ne hv, after_store_peer, if_neg (Party.peer_ne w).symm]
    exact Nat.le_refl _

theorem Acts.after_address : (c.after w s).address = c.address := by
  funext v
  revert v
  refine Party.forall_of w ?_ ?_
  · rw [after_address_self, hs.address]
  · rw [after_address_peer]

/-- What a device does keeps a thread between the devices, whoever started it. -/
theorem Joins.acts (h : c.Joins e₀ p t) (ht : thread p = some t) : (c.after w s).Joins e₀ p t := by
  by_cases hp : p = w
  · subst hp
    refine ⟨h.sound.later hs.entropy, ?_, ?_, ?_, ?_⟩
    · rw [after_store_self, hs.identity]
      exact h.initiator
    · rw [after_store_peer]
      exact h.responder
    · rw [after_store_peer]
      exact h.number
    · rw [after_store_peer, after_messenger_peer]
      exact h.inbound
  · have hpeer := Party.eq_peer_of_ne hp
    subst hpeer
    obtain ⟨hsound, hinitiator, hresponder, hnumber, hinbound⟩ := h
    rw [Party.peer_peer] at hresponder hnumber hinbound
    refine ⟨hsound.later hs.entropy, ?_, ?_, ?_, ?_⟩
    · rw [after_store_peer]
      exact hinitiator
    · rw [Party.peer_peer, after_store_self, hs.identity]
      exact hresponder
    · intro hb
      rw [Party.peer_peer, after_store_self]
      exact Nat.lt_of_lt_of_le (hnumber hb) hs.later.nextId
    · intro hb hkept
      rw [Party.peer_peer, after_store_self] at hkept ⊢
      rw [after_messenger_self, hs.settings]
      obtain ⟨key, hkey⟩ := Option.isSome_iff_exists.mp hkept
      have hold : (c.store w).signedPreKeys.get? t.header.signedPreKeyId = some key :=
        hs.later.keys _ key (hnumber hb) hkey
      have hunbuilt : thread.Unbuilt w.peer := fun t' ht' =>
        Option.some.inj (ht.symm.trans ht') ▸ hb
      rw [KeyWrap.inbound_congr hs.identity (hkey.trans hold.symm) (hs.pool hunbuilt)]
      refine hinbound hb ?_
      rw [hold]
      rfl

theorem Sound.acts (h : c.Sound e₀ thread) : (c.after w s).Sound e₀ thread where
  entropy := h.entropy.trans hs.entropy
  address := by
    rw [hs.after_address]
    exact h.address
  identity := by
    refine Party.forall_of w ?_ ?_
    · rw [after_store_peer, after_store_self, hs.identity]
      exact h.identity w
    · rw [after_store_peer, Party.peer_peer, after_store_self, hs.identity]
      exact (h.identity w).symm
  info := by
    refine Party.forall_of w ?_ ?_
    · rw [after_messenger_peer, after_messenger_self, hs.settings]
      exact h.info w
    · rw [after_messenger_peer, Party.peer_peer, after_messenger_self, hs.settings]
      exact (h.info w).symm
  ring := by
    refine Party.forall_of w ?_ ?_
    · rw [after_store_self]
      exact hs.ring
    · rw [after_store_peer]
      exact (h.ring w.peer).mono hs.entropy.drawn
  pool := by
    refine Party.forall_of w ?_ ?_
    · intro hu
      rw [after_messenger_self, Messenger.PoolFull, hs.settings, hs.pool hu]
      exact h.pool w hu
    · rw [after_messenger_peer]
      exact h.pool w.peer
  bundles := by
    intro d b hb
    rw [hs.after_address]
    rcases hs.bundles d b hb with ⟨b', hb', hout⟩ | ⟨hd, ho⟩
    · obtain ⟨v, rfl, ho⟩ := h.bundles d b' hb'
      refine ⟨v, rfl, ?_⟩
      by_cases hv : v = w
      · subst hv
        rw [after_store_self]
        exact (ho.handsOut hout).mono hs.identity hs.later hs.entropy.drawn
          fun hu => ⟨hu, hs.pool hu⟩
      · have hpeer := Party.eq_peer_of_ne hv
        subst hpeer
        rw [after_store_peer]
        exact (ho.handsOut hout).mono rfl (.refl _) hs.entropy.drawn fun hu => ⟨hu, rfl⟩
    · refine ⟨w, hd, ?_⟩
      rw [after_store_self]
      exact ho
  sessions := by
    rw [hs.after_address]
    refine Party.forall_of w ?_ ?_
    · rw [after_store_self]
      exact hs.sessions
    · rw [after_store_peer]
      exact h.sessions w.peer
  joins p t ht := (h.joins p t ht).acts hs ht
  baseKey := h.baseKey

/-- A device may store sessions with the other one. -/
theorem Acts.save (record : SessionRecord) : c.Acts e₀ n thread w
    (s.setStore (s.messenger.store.saveSession (c.address w.peer) record)) := by
  refine ⟨hs.address, hs.settings, hs.identity, fun d bytes hd => ?_, hs.entropy, hs.ring, hs.later,
    hs.nextId, hs.pool, fun d b hb => ?_⟩
  · change (s.messenger.store.sessions.insert (c.address w.peer) record.serialize)[d]? =
      some bytes at hd
    rcases Entries.of_insert hd with ⟨hdevice, -⟩ | ⟨-, hd⟩
    · exact hdevice
    · exact hs.sessions d bytes hd
  · rcases hs.bundles d b hb with hb | ⟨hd, ho⟩
    · exact .inl hb
    · exact .inr ⟨hd, ho.identity, ho.signed, ho.oneTime⟩

theorem Logged.acts (h : c.Logged thread) : (c.after w s).Logged thread :=
  h.congr hs.after_address rfl rfl

/-- What a device does leaves the sessions that the other one has stored alone. -/
theorem Keeps.acts_peer (h : c.Keeps thread w.peer) : (c.after w s).Keeps thread w.peer := by
  unfold Keeps
  rw [hs.after_address, after_store_peer]
  exact h

end Acts

/-- Upkeep leaves the sessions that a device has stored alone. -/
theorem Keeps.tended (h : c.Sound e₀ thread) (hk : ∀ v, c.Keeps thread v) {n : Nat} {s : Scene}
    (hs : Tended e₀ n (c.scene w) s) : ∀ v, (c.after w s).Keeps thread v := by
  have ha := h.acts_of_tended hs
  refine Party.forall_of w ?_ ((hk w.peer).acts_peer ha)
  unfold Keeps
  rw [ha.after_address, after_store_self, hs.sessions]
  exact hk w

omit [CipherSuite] in
theorem Fits.after (h : c.Fits) {s : Scene}
    (hs : s.messenger.store.sessions = (c.store w).sessions) : (c.after w s).Fits := by
  refine Party.forall_of w ?_ ?_
  · rw [after_store_self, hs]
    exact h w
  · rw [after_store_peer]
    exact h w.peer

omit [CipherSuite] in
/-- The stored sessions of a device can be loaded. -/
theorem Keeps.exists_loadSession (h : c.Keeps thread w) (hfits : c.Fits) :
    ∃ existing, (c.store w).loadSession (c.address w.peer) = .ok existing ∧
      (existing.elim [] SessionRecord.sessions).Perm (thread.sessionsOf w) := by
  obtain ⟨existing, hstored, hperm⟩ := h
  refine ⟨existing, ?_, hperm⟩
  cases existing with
  | none =>
    rw [Option.map_none] at hstored
    rw [Store.loadSession, hstored]
  | some record =>
    rw [Option.map_some] at hstored
    have hread := SessionRecord.deserialize_serialize (hfits w _ _ hstored)
    rw [Store.loadSession, hstored]
    simp only [hread]
    rfl

/-! ## Threads that are new, and threads that went on -/

/-- A thread is new, or takes the place of what it was before. -/
theorem Sound.set (h : c.Sound e₀ thread) (hj : c.Joins e₀ p t)
    (hbase : ∀ t', thread p.peer = some t' → ¬ t.header.baseKey.SamePoint t'.header.baseKey)
    (hbuilt : t.built = false → thread.Unbuilt p) : c.Sound e₀ (thread.set p t) := by
  have hunbuilt : ∀ v : Party, (thread.set p t).Unbuilt v → thread.Unbuilt v := by
    refine Party.forall_of p ?_ ?_
    · intro hu
      exact hbuilt ((thread.unbuilt_set_self p t).mp hu)
    · exact (thread.unbuilt_set_peer p t).mp
  refine ⟨h.entropy, h.address, h.identity, h.info, h.ring, fun w hu => h.pool w (hunbuilt _ hu),
    fun d b hb => ?_, h.sessions, ?_, ?_⟩
  · obtain ⟨w, hd, ho⟩ := h.bundles d b hb
    exact ⟨w, hd, ho.mono rfl (.refl _) (Nat.le_refl _) fun hu => ⟨hunbuilt _ hu, rfl⟩⟩
  · refine Party.forall_of p ?_ ?_
    · intro t' ht'
      rw [thread.set_self] at ht'
      exact Option.some.inj ht' ▸ hj
    · rw [thread.set_peer]
      exact h.joins p.peer
  · refine Party.forall_of p ?_ ?_
    · intro t' t'' ht' ht''
      rw [thread.set_self] at ht'
      rw [thread.set_peer] at ht''
      exact Option.some.inj ht' ▸ hbase t'' ht''
    · intro t' t'' ht' ht''
      rw [thread.set_peer] at ht'
      rw [Party.peer_peer, thread.set_self] at ht''
      exact Option.some.inj ht'' ▸ fun heq => hbase t' ht' heq.symm

theorem Carries.mono {x : Sent} {transport : KeyTransport} {key : ContentKey} {t' : Thread}
    (h : c.Carries w x transport p t key) (hheader : t'.header = t.header)
    (hsent : ∀ v a, a ∈ t.talk.sent v → a ∈ t'.talk.sent v)
    (hbuilt : t.built = true → t'.built = true) : c.Carries w x transport p t' key := by
  refine ⟨?_, hsent _ _ h.sent, h.payload, ?_, fun hnone => hbuilt (h.built hnone)⟩
  · rw [hheader]
    exact h.baseKey
  · rw [hheader]
    exact h.header

/-- A thread goes on: what was sent in it stays, and what was newly read was received. -/
theorem Logged.set (h : c.Logged thread) (ht : thread p = some t) {t' : Thread}
    (hheader : t'.header = t.header) (hsent : ∀ v a, a ∈ t.talk.sent v → a ∈ t'.talk.sent v)
    (hbuilt : t.built = true → t'.built = true)
    (hread : ∀ w m, m ∈ t'.talk.read (p.role w) → m ∈ t.talk.read (p.role w) ∨
      ∃ x transport, x ∈ c.sent w.peer ∧ x.envelope ∈ c.received w ∧
        x.envelope.keyFor (c.address w) = some transport ∧ transport.message = m) :
    c.Logged (thread.set p t') := by
  refine ⟨h.sender, fun w x transport hx hkey => ?_, h.unique, ?_⟩
  · obtain ⟨q, u, key, hu, hc⟩ := h.carried w x transport hx hkey
    by_cases hq : q = p
    · subst hq
      cases ht.symm.trans hu
      exact ⟨q, t', key, thread.set_self q t', hc.mono hheader hsent hbuilt⟩
    · rw [Party.eq_peer_of_ne hq] at hu hc
      exact ⟨p.peer, u, key, (thread.set_peer p t').trans hu, hc⟩
  · intro w q u m hu hm
    by_cases hq : q = p
    · subst hq
      rw [thread.set_self] at hu
      cases hu
      rcases hread w m hm with hm | hm
      · exact h.read w q t m ht hm
      · exact hm
    · rw [Party.eq_peer_of_ne hq] at hu hm
      rw [thread.set_peer] at hu
      exact h.read w _ u m hu hm

omit [CipherSuite] in
theorem mem_sent_log {v : Party} {x y : Sent} :
    y ∈ (c.log w x).sent v ↔ (v = w ∧ y = x) ∨ y ∈ c.sent v := by
  by_cases hv : v = w
  · subst hv
    simp [log]
  · simp [log, hv]

/-- An envelope is sent: it is no other envelope's message that it carries. -/
theorem Logged.log (h : c.Logged thread) {x : Sent} (hsender : x.envelope.sender = c.address w)
    (hcarried : ∀ transport, x.envelope.keyFor (c.address w.peer) = some transport →
      ∃ p t key, thread p = some t ∧ c.Carries w x transport p t key)
    (hnew : ∀ y transport transport', y ∈ c.sent w →
      x.envelope.keyFor (c.address w.peer) = some transport →
      y.envelope.keyFor (c.address w.peer) = some transport' →
        transport.message ≠ transport'.message) : (c.log w x).Logged thread := by
  refine ⟨fun v y hy => ?_, fun v y transport hy hkey => ?_, ?_, fun v q t m ht hm => ?_⟩
  · rcases mem_sent_log.mp hy with ⟨rfl, rfl⟩ | hy
    · exact hsender
    · exact h.sender v y hy
  · rcases mem_sent_log.mp hy with ⟨rfl, rfl⟩ | hy
    · obtain ⟨p, t, key, ht, hc⟩ := hcarried transport hkey
      exact ⟨p, t, key, ht, hc.baseKey, hc.sent, hc.payload, hc.header, hc.built⟩
    · obtain ⟨p, t, key, ht, hc⟩ := h.carried v y transport hy hkey
      exact ⟨p, t, key, ht, hc.baseKey, hc.sent, hc.payload, hc.header, hc.built⟩
  · intro v y z transport transport' hy hz hkey hkey' heq
    rcases mem_sent_log.mp hy with ⟨hv, hyx⟩ | hy'
    · rcases mem_sent_log.mp hz with ⟨-, hzx⟩ | hz'
      · rw [hyx, hzx]
      · subst hv hyx
        exact absurd heq (hnew z transport transport' hz' hkey hkey')
    · rcases mem_sent_log.mp hz with ⟨hv, hzx⟩ | hz'
      · subst hv hzx
        exact absurd heq.symm (hnew y transport' transport hy' hkey' hkey)
      · exact h.unique v y z transport transport' hy' hz' hkey hkey' heq
  · obtain ⟨x', transport, hx', hrest⟩ := h.read v q t m ht hm
    exact ⟨x', transport, mem_sent_log.mpr (.inr hx'), hrest⟩

omit [CipherSuite] in
theorem mem_received_pull {v : Party} {envelope envelope' : Envelope} :
    envelope' ∈ (c.pull w envelope).received v ↔
      (v = w ∧ envelope' = envelope) ∨ envelope' ∈ c.received v := by
  by_cases hv : v = w
  · subst hv
    simp [pull]
  · simp [pull, hv]

theorem Logged.pull (h : c.Logged thread) (w : Party) (envelope : Envelope) :
    (c.pull w envelope).Logged thread := by
  refine ⟨h.sender, fun v x transport hx hkey => ?_, h.unique, fun v p t m ht hm => ?_⟩
  · obtain ⟨p, t, key, ht, hc⟩ := h.carried v x transport hx hkey
    exact ⟨p, t, key, ht, hc.baseKey, hc.sent, hc.payload, hc.header, hc.built⟩
  · obtain ⟨x, transport, hx, hreceived, hrest⟩ := h.read v p t m ht hm
    exact ⟨x, transport, hx, mem_received_pull.mpr (.inr hreceived), hrest⟩

/-- A new thread, in which nothing was read, changes nothing about what was sent before. -/
theorem Logged.set_new (h : c.Logged thread) (hnone : thread p = none)
    (hread : ∀ v, t.talk.read v = []) : c.Logged (thread.set p t) := by
  refine ⟨h.sender, fun w x transport hx hkey => ?_, h.unique, ?_⟩
  · obtain ⟨q, t', key, ht', hc⟩ := h.carried w x transport hx hkey
    refine ⟨q, t', key, ?_, hc⟩
    have hq : q = p.peer := by
      refine Party.eq_peer_of_ne ?_
      rintro rfl
      rw [hnone] at ht'
      cases ht'
    rw [hq] at ht' ⊢
    rw [thread.set_peer]
    exact ht'
  · intro w q t' m ht' hm
    by_cases hq : q = p
    · rw [hq, thread.set_self] at ht'
      rw [← Option.some.inj ht', hread] at hm
      cases hm
    · rw [Party.eq_peer_of_ne hq] at ht' hm
      rw [thread.set_peer] at ht'
      exact h.read w _ t' m ht' hm

/-- Both ends of a thread vouch for its identities, and no session of the other thread does. -/
theorem Sound.associatedData_ne (h : c.Sound e₀ thread) {t' : Thread} (ht : thread p = some t)
    (ht' : thread p.peer = some t') : t.associatedData ≠ t'.associatedData := by
  have hj := h.joins p t ht
  have hj' := h.joins p.peer t' ht'
  intro heq
  rw [Thread.associatedData, Thread.associatedData, hj.initiator, hj'.initiator] at heq
  -- the threads vouch for the identities in different order, and the identities are different
  exact h.identity p (Agreement.associatedData_inj heq).1.symm

/-! ## The start -/

omit [CipherSuite] in
/-- What both devices have in common right after they were set up. -/
theorem New.sets_up (h : New e₀ c) (w : Party) :
    (c.store w).sessions = ∅ ∧ (c.store w).signedPreKeys.Genuine e₀ c.entropy.drawn ∧
      (c.store w).signedPreKeys.nextId.toNat = 2 ∧ (c.messenger w).PoolFull ∧ c.sent w = [] ∧
      c.received w = [] := by
  obtain ⟨first, second, settings, settings', now, now', e, hfirst, hsecond, hc⟩ := h.provisioned
  obtain ⟨hlater, -, hset, hsessions, -, hring, hnext, hpool⟩ :=
    Messenger.exists_of_provision (.refl e₀) hfirst
  obtain ⟨hlater', -, hset', hsessions', -, hring', hnext', hpool'⟩ :=
    Messenger.exists_of_provision hlater hsecond
  have hbound := h.pool w
  rw [hc] at hbound ⊢
  cases w with
  | first =>
    exact ⟨hsessions, hring.mono hlater'.drawn, hnext, hpool (hset ▸ hbound), rfl, rfl⟩
  | second => exact ⟨hsessions', hring', hnext', hpool' (hset' ▸ hbound), rfl, rfl⟩

/-- Devices that were just set up have different identities. -/
theorem New.identity_ne (h : New e₀ c) (hdistinct : e₀.DrawsDistinct c.entropy.drawn) :
    (c.store .first).identity.publicKey ≠ (c.store .second).identity.publicKey := by
  obtain ⟨first, second, settings, settings', now, now', e, hfirst, hsecond, hc⟩ := h.provisioned
  obtain ⟨hlater, -, -, -, ⟨j, hj, hjlt, hsecret⟩, -⟩ :=
    Messenger.exists_of_provision (.refl e₀) hfirst
  obtain ⟨-, -, -, -, ⟨k, hk, hklt, hsecret'⟩, -⟩ := Messenger.exists_of_provision hlater hsecond
  rw [hlater.supply] at hsecret'
  rw [hc]
  intro heq
  have hpublic : e₀.key j = e₀.key k := by
    change Secret.publicKey first.store.identity.secret =
      Secret.publicKey second.store.identity.secret at heq
    rw [hsecret, hsecret'] at heq
    exact heq
  have hne := hdistinct j k hj (Nat.lt_of_lt_of_le hjlt hk) hklt
  rw [hpublic] at hne
  exact hne (PublicKey.SamePoint.refl _)

/-- Devices that were just set up fit together. -/
theorem New.sound (h : New e₀ c) (hdistinct : e₀.DrawsDistinct c.entropy.drawn) :
    c.Sound e₀ fun _ => none where
  entropy := by
    obtain ⟨first, second, settings, settings', now, now', e, hfirst, hsecond, -⟩ := h.provisioned
    obtain ⟨hlater, -⟩ := Messenger.exists_of_provision (.refl e₀) hfirst
    obtain ⟨hlater', -⟩ := Messenger.exists_of_provision hlater hsecond
    exact hlater.trans hlater'
  address := Party.forall_of .first h.address.symm h.address
  identity := Party.forall_of .first (h.identity_ne hdistinct).symm (h.identity_ne hdistinct)
  info := Party.forall_of .first h.info.symm h.info
  ring w := (h.sets_up w).2.1
  pool w _ := (h.sets_up w).2.2.2.1
  bundles d b hb := by
    rw [h.bundles, Std.ExtTreeMap.getElem?_empty] at hb
    cases hb
  sessions w d bytes hb := by
    rw [(h.sets_up w).1, Std.ExtTreeMap.getElem?_empty] at hb
    cases hb
  joins := nofun
  baseKey := nofun

omit [CipherSuite] in
theorem New.keeps (h : New e₀ c) (w : Party) : c.Keeps (fun _ => none) w := by
  refine ⟨none, ?_, .refl _⟩
  rw [(h.sets_up w).1, Std.ExtTreeMap.getElem?_empty]
  rfl

theorem New.logged (h : New e₀ c) : c.Logged fun _ => none := by
  have hsent : ∀ (w : Party) (x : Sent), x ∉ c.sent w := by
    intro w x hx
    rw [(h.sets_up w).2.2.2.2.1] at hx
    cases hx
  exact ⟨fun w x hx => absurd hx (hsent w x), fun w x _ hx => absurd hx (hsent w x),
    fun w x _ _ _ hx => absurd hx (hsent w x), nofun⟩

end Exchange

end MultiDevice
