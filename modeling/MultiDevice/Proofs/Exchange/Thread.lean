import MultiDevice.Proofs.Key.PreKeys
import MultiDevice.Proofs.KeyWrap.Outcome
import MultiDevice.Proofs.Ratchet.Conversation
import MultiDevice.Proofs.Session.Record

/-!
# Both ends of a session

A session that one device started with another is a conversation of two ratchets, of which the
responder builds its own when the first message arrives. What was written in one session is refused
by any other, because every message vouches for the identities of both ends in their order.

## Main definitions

* `Thread`: a session with both its ends
* `Thread.Sound`: both ends are in step
* `Thread.sends`, `Thread.reads`: the thread after a message was sent, and after one was read

## Main results

* `Thread.Sound.sends`, `Thread.Sound.reads`: what the ends do keeps them in step
* `Thread.Sound.refuses`: what was written in one thread is refused by the sessions of another
* `Thread.exists_of_outbound`: a session started from a bundle is one end of a thread, and the owner
  of the bundle builds the other end
-/

namespace MultiDevice

section Draws

variable [CipherSuite] {e e' : Entropy} {stop stop' : Nat}

/-- The keys drawn from a source before its draw number `stop` are different points. -/
def Entropy.DrawsDistinct (e : Entropy) (stop : Nat) : Prop :=
  ∀ j k, e.drawn ≤ j → j < k → k < stop → ¬ (e.key j).SamePoint (e.key k)

theorem Entropy.DrawsDistinct.mono (h : e.DrawsDistinct stop') (hle : stop ≤ stop') :
    e.DrawsDistinct stop := fun j k hj hjk hk => h j k hj hjk (Nat.lt_of_lt_of_le hk hle)

/-- Later draws are new to whoever knows a key drawn before. -/
theorem Entropy.DrawsDistinct.drawsNew (h : e.DrawsDistinct stop) (he : Later e e')
    {secret : Secret} (hs : e.Drew e'.drawn secret) : e'.DrawsNew secret.publicKey stop := by
  have hkey : ∀ k, e'.key k = e.key k := fun k => by rw [key, key, he.supply]
  obtain ⟨n, hn, hlt, rfl⟩ := hs
  refine ⟨fun k hk hks => ?_, fun j k hj hjk hks => ?_⟩
  · rw [hkey]
    exact h n k hn (Nat.lt_of_lt_of_le hlt hk) hks
  · rw [hkey, hkey]
    exact h j k (Nat.le_trans he.drawn hj) hjk hks

end Draws

/-- A session with both its ends. -/
structure Thread where
  /-- The ratchets of both ends, what they sent and what they read. The initiator is the first. -/
  talk : Conversation
  /-- What the initiator sends along until it is answered. -/
  header : PreKeyHeader
  /-- The identity of the responder. -/
  responder : PublicKey
  /-- Whether the initiator was answered. -/
  answered : Bool
  /-- Whether the responder built its end. -/
  built : Bool

namespace Thread

/-- The identities of both ends, initiator first. -/
def associatedData (t : Thread) : Block 64 :=
  Agreement.associatedData t.header.identity t.responder

/-- The session that one end of a thread has. -/
def session (t : Thread) : Party → Session
  | .first =>
    { ratchet := t.talk.ratchet .first
      remoteIdentity := t.responder
      baseKey := t.header.baseKey
      pending := if t.answered then none else some t.header }
  | .second =>
    { ratchet := t.talk.ratchet .second
      remoteIdentity := t.header.identity
      baseKey := t.header.baseKey
      pending := none }

@[simp] theorem session_ratchet (t : Thread) (w : Party) :
    (t.session w).ratchet = t.talk.ratchet w := by
  cases w <;> rfl

@[simp] theorem session_baseKey (t : Thread) (w : Party) :
    (t.session w).baseKey = t.header.baseKey := by
  cases w <;> rfl

/-- Both ends of a thread were agreed with its ephemeral key. -/
theorem agreedWith_session (t : Thread) (w : Party) :
    SessionRecord.agreedWith (some t.header.baseKey) (t.session w) = true := by
  rw [SessionRecord.agreedWith, session_baseKey]
  exact decide_eq_true (PublicKey.SamePoint.refl _)

/-- Only an initiator that was not answered sends its header along. -/
theorem pending_eq_some_iff {t : Thread} {w : Party} {header : PreKeyHeader} :
    (t.session w).pending = some header ↔ w = .first ∧ t.answered = false ∧ header = t.header := by
  cases w with
  | first => cases h : t.answered <;> simp [session, h, eq_comm]
  | second => simp [session]

variable [CipherSuite] {t : Thread} {w : Party} {p : Bytes} {m : RatchetMessage} {e₀ e e' : Entropy}

/-- The thread after one end sent a message. -/
def sends (t : Thread) (w : Party) (p : Bytes) : Thread :=
  { t with talk := t.talk.step (.send w p) }

/-- The thread after one end read a message. -/
def reads (t : Thread) (w : Party) (m : RatchetMessage) (e : Entropy) : Thread :=
  { t with
    talk := { t.talk with entropy := e }.step (.deliver w m)
    answered := t.answered || w == .first
    built := t.built || w == .second }

/-- Both ends are in step, and the keys that both know were drawn. -/
structure Sound (e₀ e : Entropy) (t : Thread) : Prop where
  inStep : ∃ source secret flow, Entropy.Later e₀ source ∧ e₀.Drew source.drawn secret ∧
    Conversation.InStep t.associatedData source secret.publicKey { t.talk with entropy := e } flow
  baseKey : ∃ secret, e₀.Drew e.drawn secret ∧ t.header.baseKey = secret.publicKey
  built : t.answered = true → t.built = true

/-! ## What happens at one end -/

section Sends

variable {r : Ratchet} (he : (t.talk.ratchet w).encrypt p = .ok m r)
include he

theorem sends_talk : (t.sends w p).talk =
    { t.talk with
      ratchet := Function.update t.talk.ratchet w r
      sent := Function.update t.talk.sent w ((p, m) :: t.talk.sent w) } := by
  simp only [sends, Conversation.step, he]

theorem sends_session_self : (t.sends w p).session w = { t.session w with ratchet := r } := by
  cases w
  all_goals
    simp only [session, sends_talk he, Function.update_self]
    rfl

theorem sends_session_peer : (t.sends w p).session w.peer = t.session w.peer := by
  cases w
  all_goals
    simp only [session, sends_talk he, Party.peer]
    rfl

/-- Sending keeps both ends in step. -/
theorem Sound.sends (h : t.Sound e₀ e) : (t.sends w p).Sound e₀ e := by
  obtain ⟨source, secret, flow, hsource, hdrew, hstep⟩ := h.inStep
  obtain ⟨flow', hstep'⟩ := hstep.send w p
  refine ⟨⟨source, secret, flow', hsource, hdrew, ?_⟩, h.baseKey, h.built⟩
  simp only [Conversation.step, he] at hstep'
  rw [sends_talk he]
  exact hstep'

/-- What is sent is new. -/
theorem Sound.notMem_sent (h : t.Sound e₀ e) : m ∉ (t.talk.sent w).map Prod.snd := by
  obtain ⟨source, secret, flow, hsource, hdrew, hstep⟩ := h.inStep
  exact hstep.notMem_sent (c := { t.talk with entropy := e }) he

end Sends

theorem Sound.later (h : t.Sound e₀ e) (he : Entropy.Later e e') : t.Sound e₀ e' := by
  obtain ⟨source, secret, flow, hsource, hdrew, hstep⟩ := h.inStep
  obtain ⟨base, hbase, hkey⟩ := h.baseKey
  refine ⟨⟨source, secret, flow, hsource, hdrew, hstep.linked, hstep.sent, hstep.read,
    fun w k hk => (hstep.keys w k hk).mono he.drawn, hstep.entropy.trans he⟩,
    ⟨base, hbase.mono he.drawn, hkey⟩, h.built⟩

/-- Both ends vouch for the same identities. -/
theorem Sound.associatedData_eq (h : t.Sound e₀ e) (w : Party) :
    (t.talk.ratchet w).associatedData = t.associatedData := by
  obtain ⟨source, secret, flow, hsource, hdrew, hstep⟩ := h.inStep
  exact (hstep.linked w).back.reads.associatedData

/-- A message that one end sent was encrypted together with the identities of both. -/
theorem Sound.exists_encipher (h : t.Sound e₀ e) (hm : (p, m) ∈ t.talk.sent w) :
    ∃ key, m.ciphertext =
      Ratchet.encipher key (Ratchet.vouched t.associatedData m.header) p := by
  obtain ⟨source, secret, flow, hsource, hdrew, hstep⟩ := h.inStep
  obtain ⟨epoch, -, n, -, rfl⟩ := hstep.sent w p m hm
  exact ⟨_, rfl⟩

omit [CipherSuite] in
theorem vouched_inj {ad ad' : Block 64} {h : MessageHeader}
    (heq : Ratchet.vouched ad h = Ratchet.vouched ad' h) : ad = ad' :=
  Block.ext (List.append_cancel_right heq)

/-- What was written in a thread is refused by a session that vouches for other identities. -/
theorem Sound.refuses (hopens : OpensOnlySealed) (h : t.Sound e₀ e) (hm : (p, m) ∈ t.talk.sent w)
    {s : Session} (hs : s.ratchet.associatedData ≠ t.associatedData) : s.Refuses m := by
  intro e₁
  cases hd : s.decrypt m e₁ with
  | error err e₂ => exact ⟨err, e₂, rfl⟩
  | ok a e₂ =>
    obtain ⟨p', s'⟩ := a
    obtain ⟨r, hd, -⟩ := Session.decrypt_eq_ok_iff.mp hd
    obtain ⟨key, hd⟩ := Ratchet.exists_decipher_of_decrypt hd
    obtain ⟨key', hc⟩ := h.exists_encipher hm
    rw [hc] at hd
    have hopen := Ratchet.decrypt_of_decipher hd
    exact absurd (vouched_inj (hopens _ _ _ _ _ _ _ _ hopen).2) hs

/-- No message belongs to two threads of other identities. -/
theorem Sound.notMem_sent_of_ne (hseals : OpensSealed) (hopens : OpensOnlySealed)
    (h : t.Sound e₀ e) (hm : (p, m) ∈ t.talk.sent w) {t' : Thread} (h' : t'.Sound e₀ e)
    (hne : t.associatedData ≠ t'.associatedData) (w' : Party) (p' : Bytes) :
    (p', m) ∉ t'.talk.sent w' := by
  intro hm'
  obtain ⟨key, hc⟩ := h.exists_encipher hm
  obtain ⟨key', hc'⟩ := h'.exists_encipher hm'
  -- one ciphertext would open under what either thread vouches for
  have hopen := hseals (Ratchet.deriveCipher key').1 (Ratchet.deriveCipher key').2
    (Ratchet.vouched t'.associatedData m.header) p'
  have heq : CipherSuite.encrypt (Ratchet.deriveCipher key').1 (Ratchet.deriveCipher key').2
      (Ratchet.vouched t'.associatedData m.header) p' =
      CipherSuite.encrypt (Ratchet.deriveCipher key).1 (Ratchet.deriveCipher key).2
        (Ratchet.vouched t.associatedData m.header) p := hc'.symm.trans hc
  rw [heq] at hopen
  exact hne (vouched_inj (hopens _ _ _ _ _ _ _ _ hopen).2).symm

/-- A thread is built once a message was read in it, if its initiator reads only what a built end
sent. -/
theorem built_reads (t : Thread) (w : Party) (m : RatchetMessage) (e : Entropy)
    (h : w = .first → t.built = true) : (t.reads w m e).built = true := by
  change (t.built || w == .second) = true
  cases w with
  | first => rw [h rfl, Bool.true_or]
  | second => exact Bool.or_true _

section Reads

variable (hc : AgreementCommutes) (hseals : OpensSealed) (hrefuses : ∀ n, e₀.refuses n = false)
  (h : t.Sound e₀ e)
include hc hseals hrefuses h

/-- A message within reach is read at the other end. -/
theorem Sound.exists_decrypt (hm : (p, m) ∈ t.talk.sent w.peer) (hunread : m ∉ t.talk.read w)
    (hreach : (t.talk.ratchet w).WithinReach m) :
    ∃ r e', (t.talk.ratchet w).decrypt m e = .ok (p, r) e' := by
  obtain ⟨source, secret, flow, hsource, hdrew, hstep⟩ := h.inStep
  obtain ⟨r, e', hd, -⟩ := hstep.exists_decrypt hc hseals
    (fun n => by rw [hsource.refuses, hrefuses]) hm hunread hreach
  exact ⟨r, e', hd⟩

/-- What is read is what was sent. -/
theorem Sound.plaintext_eq (hm : (p, m) ∈ t.talk.sent w.peer) (hunread : m ∉ t.talk.read w)
    {p' : Bytes} {s : Session} (hd : (t.session w).decrypt m e = .ok (p', s) e') : p' = p := by
  obtain ⟨r, hr, -⟩ := Session.decrypt_eq_ok_iff.mp hd
  rw [session_ratchet] at hr
  obtain ⟨source, secret, flow, hsource, hdrew, hstep⟩ := h.inStep
  have hreach := Ratchet.withinReach_of_decrypt hr (hstep.linked w).back.reads.receiving_eq_none
  obtain ⟨r', e'', hr'⟩ := h.exists_decrypt hc hseals hrefuses hm hunread hreach
  cases hr.symm.trans hr'
  rfl

/-- Reading keeps both ends in step. -/
theorem Sound.reads (hm : (p, m) ∈ t.talk.sent w.peer) (hunread : m ∉ t.talk.read w)
    {p' : Bytes} {s : Session} (hd : (t.session w).decrypt m e = .ok (p', s) e')
    (hdistinct : e₀.DrawsDistinct e'.drawn) (hbuilt : w = .first → t.built = true) :
    s = (t.reads w m e).session w ∧ (t.reads w m e).Sound e₀ e' ∧
      (t.reads w m e).session w.peer = t.session w.peer ∧
      (t.reads w m e).talk.sent = t.talk.sent ∧
      (t.reads w m e).talk.read = Function.update t.talk.read w (m :: t.talk.read w) := by
  obtain ⟨r, hr, rfl⟩ := Session.decrypt_eq_ok_iff.mp hd
  rw [session_ratchet] at hr
  obtain ⟨source, secret, flow, hsource, hdrew, hstep⟩ := h.inStep
  have hlater := (Ratchet.decrypt_advances _ m).of_ok hr
  have hflight : ({ t.talk with entropy := e } : Conversation).InFlight w m :=
    ⟨List.mem_map_of_mem hm, hunread⟩
  have htalk : ({ t.talk with entropy := e } : Conversation).step (.deliver w m) =
      { t.talk with
        ratchet := Function.update t.talk.ratchet w r
        entropy := e'
        read := Function.update t.talk.read w (m :: t.talk.read w) } := by
    simp only [Conversation.step, if_pos hflight, hr]
  have hnew : source.DrawsNew secret.publicKey
      (({ t.talk with entropy := e } : Conversation).step (.deliver w m)).entropy.drawn := by
    rw [htalk]
    exact hdistinct.drawsNew hsource hdrew
  obtain ⟨flow', hstep'⟩ := hstep.deliver hc hseals
    (fun n => by rw [hsource.refuses, hrefuses]) w m hnew
  obtain ⟨base, hbase, hkey⟩ := h.baseKey
  refine ⟨?_, ⟨⟨source, secret, flow', hsource, hdrew, ?_⟩,
    ⟨base, hbase.mono hlater.drawn, hkey⟩, fun ha => ?_⟩, ?_, ?_, ?_⟩
  · cases w <;> simp [session, Thread.reads, htalk]
  · rw [htalk] at hstep'
    simp only [Thread.reads, htalk]
    exact hstep'
  · exact t.built_reads w m e hbuilt
  · cases w <;> simp [session, Thread.reads, htalk, Party.peer]
  · simp only [Thread.reads, htalk]
  · simp only [Thread.reads, htalk]

end Reads

end Thread

/-! ## Where threads come from -/

section Outbound

variable [CipherSuite] {e₀ e e' : Entropy}

/-- The responder comes to the same secret as the initiator. -/
theorem Agreement.respond_eq (hc : AgreementCommutes) {info : Bytes} {identity : IdentityKey}
    {bundle : PreKeyBundle} {agreed : Initiation}
    (h : Agreement.initiate info identity bundle e = .ok agreed e') {identity' : IdentityKey}
    {signed : SignedPreKey} {oneTime : Option OneTimePreKey}
    (hi : bundle.identity = identity'.publicKey) (hs : bundle.signedPreKey.key = signed.publicKey)
    (ho : bundle.oneTimePreKey.map NumberedKey.key = oneTime.map OneTimePreKey.publicKey) :
    Agreement.respond info identity' signed oneTime identity.publicKey agreed.ephemeral =
      agreed.secret := by
  unfold Agreement.initiate at h
  cases hv : bundle.verify with
  | error err =>
    rw [hv] at h
    cases h
  | ok _ =>
    rw [hv] at h
    obtain ⟨ephemeral, t, -, h⟩ := bind_eq_ok_iff.mp h
    cases h
    have hfourth : (oneTime.map fun k => k.secret.agree ephemeral.publicKey) =
        bundle.oneTimePreKey.map fun k => ephemeral.agree k.key := by
      have hmap := congrArg (Option.map ephemeral.agree) ho
      rw [Option.map_map, Option.map_map] at hmap
      refine Eq.trans ?_ hmap.symm
      exact Option.map_congr fun k _ => hc k.secret ephemeral
    change Agreement.combine info (signed.secret.agree identity.secret.publicKey)
      (identity'.secret.agree ephemeral.publicKey) (signed.secret.agree ephemeral.publicKey)
      (oneTime.map fun k => k.secret.agree ephemeral.publicKey) = _
    rw [hfourth, hc signed.secret, hc identity'.secret, hc signed.secret, hi, hs]
    rfl

/-- The ephemeral key of an agreement is the next one drawn. -/
theorem Agreement.ephemeral_of_initiate {info : Bytes} {identity : IdentityKey}
    {bundle : PreKeyBundle} {agreed : Initiation}
    (h : Agreement.initiate info identity bundle e = .ok agreed e') :
    agreed.ephemeral = Secret.publicKey (e.supply e.drawn 32) ∧ e' = e.next := by
  unfold Agreement.initiate at h
  cases hv : bundle.verify with
  | error err =>
    rw [hv] at h
    cases h
  | ok _ =>
    rw [hv] at h
    obtain ⟨ephemeral, t, hb, h⟩ := bind_eq_ok_iff.mp h
    obtain ⟨rfl, rfl⟩ := Entropy.eq_of_block hb
    cases h
    exact ⟨rfl, rfl⟩

/-- What a device needs to keep for the owner of a bundle to build the other end of a session
started from it. -/
structure Answers (st : Store) (bundle : PreKeyBundle) (own : Secret) : Prop where
  identity : bundle.identity = st.identity.publicKey
  signed : ∀ key, st.signedPreKeys.get? bundle.signedPreKey.id = some key → key.secret = own
  oneTime : ∀ k, bundle.oneTimePreKey = some k →
    ∃ key, st.oneTimePreKeys.get? k.id = some key ∧ key.publicKey = k.key

/-- A session started from a bundle is one end of a thread, and the owner of the bundle builds the
other end. -/
theorem Thread.exists_of_outbound (hc : AgreementCommutes) {c c' : KeyWrap.Settings}
    {st st' : Store} {bundle : PreKeyBundle} {session : Session} (he : Entropy.Later e₀ e)
    {own : Secret} (hown : e₀.Drew e.drawn own) (hkey : bundle.signedPreKey.key = own.publicKey)
    (hinfo : c'.info = c.info) (ha : Answers st' bundle own)
    (h : KeyWrap.outbound c st bundle e = .ok session e') :
    ∃ t : Thread, t.Sound e₀ e' ∧ t.session .first = session ∧
      t.header.identity = st.identity.publicKey ∧
      t.header.signedPreKeyId = bundle.signedPreKey.id ∧ t.responder = bundle.identity ∧
      t.answered = false ∧ t.built = false ∧ (∀ w, t.talk.sent w = []) ∧
      (∀ w, t.talk.read w = []) ∧ Entropy.Later e e' ∧
      (∃ n, e.drawn ≤ n ∧ n < e'.drawn ∧ t.header.baseKey = e₀.key n) ∧
      ((st'.signedPreKeys.get? bundle.signedPreKey.id).isSome →
        KeyWrap.inbound c' st' t.header = .ok (t.session .second)) := by
  obtain ⟨agreed, ratchet, e₁, hagree, hratchet, rfl⟩ := KeyWrap.outbound_eq_ok_iff.mp h
  obtain ⟨hephemeral, rfl⟩ := Agreement.ephemeral_of_initiate hagree
  have hlater := (Ratchet.initiate_advances _ _ _ _).of_ok hratchet
  have hbase : agreed.ephemeral = e₀.key e.drawn := by
    rw [hephemeral, Entropy.key, he.supply]
  have hlt : e.drawn < e'.drawn := hlater.drawn
  rw [hkey] at hratchet
  obtain ⟨flow, hstep⟩ := Conversation.inStep_start hc c'.maxSkip hratchet
  let t : Thread := {
    talk := Conversation.start ratchet (Ratchet.respond agreed.secret own c'.maxSkip
      (Agreement.associatedData st.identity.publicKey bundle.identity)) e'
    header := {
      identity := st.identity.publicKey
      signedPreKeyId := bundle.signedPreKey.id
      oneTimePreKeyId := bundle.oneTimePreKey.map (·.id)
      baseKey := agreed.ephemeral }
    responder := bundle.identity
    answered := false
    built := false }
  refine ⟨t, ⟨⟨e.next, own, flow, he.trans e.later_next, hown.mono (Nat.le_succ _), hstep⟩,
    ⟨e.supply e.drawn 32, he.drew_next.mono hlater.drawn, hephemeral⟩, fun h => (nomatch h)⟩,
    rfl, rfl, rfl, rfl, rfl, rfl, fun _ => rfl, fun _ => rfl, e.later_next.trans hlater,
    ⟨e.drawn, Nat.le_refl _, hlt, hbase⟩, fun hkept => ?_⟩
  obtain ⟨signed, hsigned⟩ := Option.isSome_iff_exists.mp hkept
  have hsecret := ha.signed signed hsigned
  obtain ⟨oneTime, hnamed, hmap⟩ : ∃ oneTime,
      KeyWrap.namedOneTimePreKey st' (bundle.oneTimePreKey.map (·.id)) = .ok oneTime ∧
        bundle.oneTimePreKey.map NumberedKey.key = oneTime.map OneTimePreKey.publicKey := by
    cases ho : bundle.oneTimePreKey with
    | none => exact ⟨none, rfl, rfl⟩
    | some k =>
      obtain ⟨key, hget, hpublic⟩ := ha.oneTime k ho
      refine ⟨some key, ?_, congrArg some hpublic.symm⟩
      simp only [KeyWrap.namedOneTimePreKey, Option.map_some, hget]
  have hpublic : bundle.signedPreKey.key = signed.publicKey := by
    rw [hkey, SignedPreKey.publicKey, hsecret]
  have hsame := Agreement.respond_eq hc hagree ha.identity hpublic hmap
  unfold KeyWrap.inbound
  simp only [t, hsigned, hnamed]
  change Except.ok _ = Except.ok _
  rw [hinfo, hsame, hsecret, ← ha.identity]
  rfl

end Outbound

end MultiDevice
