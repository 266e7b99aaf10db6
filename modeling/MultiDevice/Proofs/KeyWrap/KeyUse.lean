import MultiDevice.Proofs.Agreement
import MultiDevice.Proofs.KeyWrap.Outcome
import MultiDevice.Proofs.Ratchet.Several
import MultiDevice.Proofs.Trust.Pinned

/-!
# How the sessions with a device use their keys

Content keys go to a device, and come from it, in whichever of the sessions with it reads or sends.
A session may be started for a message, superseded, dropped or forgotten on the way. As long as no
two sessions start from one secret, the key that opens a content key was not used before.

## Main definitions

* `Contact`, `KeyUse`: the sessions started with a device, and the derivations made in them
* `KeyWrap.useToUnwrap`, `KeyWrap.useToWrap`: what unwrapping and wrapping a content key uses
* `Store.HoldsUnspent`: the sessions stored for a device hold unspent keys

## Main results

* `Store.HoldsUnspent.unwrap`: a content key is opened under a key that was not used before
* `Store.HoldsUnspent.wrap`: sending keeps the keys that are held unspent
-/

namespace MultiDevice

open MultiDevice.Derivation (Distinct)

/-- The ratchets of the sessions. -/
def SessionRecord.ratchets (r : SessionRecord) : List Ratchet := r.sessions.map (·.ratchet)

/-! ## What is used -/

/-- A session that was started with a device. -/
structure Contact where
  /-- The shared secrets that were combined. -/
  material : Bytes
  /-- The purpose that they were combined for. -/
  info : Bytes
  /-- The one-time pre-key that it was built with, under its number. -/
  oneTimePreKey : Option (UInt32 × OneTimePreKey)
  deriving DecidableEq

/-- The secret that was agreed on. -/
def Contact.secret [CipherSuite] (contact : Contact) : Block 32 :=
  CipherSuite.derive Agreement.salt contact.material contact.info 32

/-- What came of the sessions with a device. -/
structure KeyUse where
  /-- The sessions that were started. -/
  contacts : List Contact
  /-- The derivations that were made. -/
  derivations : List Derivation

namespace KeyUse

/-- Nothing came of them. -/
def nothing : KeyUse := ⟨[], []⟩

instance : Append KeyUse := ⟨fun u v => ⟨u.contacts ++ v.contacts, u.derivations ++ v.derivations⟩⟩

@[simp] theorem contacts_append (u v : KeyUse) :
    (u ++ v).contacts = u.contacts ++ v.contacts := rfl

@[simp] theorem derivations_append (u v : KeyUse) :
    (u ++ v).derivations = u.derivations ++ v.derivations := rfl

@[simp] theorem append_nothing (u : KeyUse) : u ++ nothing = u := by
  cases u
  exact congrArg₂ mk (List.append_nil _) (List.append_nil _)

@[simp] theorem nothing_append (u : KeyUse) : nothing ++ u = u := rfl

theorem append_assoc (u v w : KeyUse) : u ++ v ++ w = u ++ (v ++ w) :=
  congrArg₂ mk (List.append_assoc _ _ _) (List.append_assoc _ _ _)

end KeyUse

namespace KeyWrap

variable [CipherSuite]

/-- The session that is built for a header with a signed pre-key, as one that is started. -/
def contactOf (c : Settings) (s : Store) (header : PreKeyHeader) (signed : SignedPreKey) :
    Contact where
  material := Agreement.responderMaterial s.identity signed
    (header.oneTimePreKeyId.bind s.oneTimePreKeys.get?) header.identity header.baseKey
  info := c.info
  oneTimePreKey := header.oneTimePreKeyId.bind fun id =>
    (s.oneTimePreKeys.get? id).map fun key => (id, key)

/-- The session that is built for a header, and what it is started from. -/
def built? (c : Settings) (s : Store) (header : PreKeyHeader) : Option (Contact × Session) :=
  match s.signedPreKeys.get? header.signedPreKeyId, inbound c s header with
  | some signed, .ok session => some (contactOf c s header signed, session)
  | _, _ => none

/-- The session that is built for a transport, if none of those there are was agreed with the
ephemeral key that its header names. -/
def started? (c : Settings) (s : Store) (device : DeviceAddress) (t : KeyTransport) :
    Option (Contact × Session) :=
  match s.loadSession device, t.preKey with
  | .ok (some record), some header =>
    if record.hasBaseKey header.baseKey then none else built? c s header
  | .ok none, some header => built? c s header
  | _, _ => none

/-- What unwrapping a content key uses. What fails uses nothing. -/
def useToUnwrap (c : Settings) (s : Store) (device : DeviceAddress) (t : KeyTransport)
    (e : Entropy) : KeyUse :=
  match unwrap c s device t e with
  | .error _ _ => .nothing
  | .ok _ _ =>
    match started? c s device t with
    | some (contact, session) =>
      { contacts := [contact]
        derivations :=
          .agreed session.ratchet.rootKey :: session.ratchet.derivedFor t.message e }
    | none =>
      match s.loadSession device with
      | .ok (some record) =>
        match SessionRecord.reader? t.message (t.preKey.map (·.baseKey)) record.sessions e with
        | some (session, e) => ⟨[], session.ratchet.derivedFor t.message e⟩
        | none => .nothing
      | _ => .nothing

/-- The session that is started from a bundle with an ephemeral key. It takes no one-time pre-key of
the device that starts it. -/
def contactWith (c : Settings) (s : Store) (b : PreKeyBundle) (ephemeral : Secret) : Contact where
  material := Agreement.initiatorMaterial s.identity b ephemeral
  info := c.info
  oneTimePreKey := none

/-- What starting a session from a bundle uses. -/
def useToStart (c : Settings) (s : Store) (b : PreKeyBundle) (e : Entropy) : KeyUse :=
  match Agreement.initiate c.info s.identity b e with
  | .error _ _ => .nothing
  | .ok agreed e₁ =>
    match Ratchet.initiate agreed.secret b.signedPreKey.key c.maxSkip
        (Agreement.associatedData s.identity.publicKey b.identity) e₁ with
    | .error _ _ => .nothing
    | .ok ratchet _ =>
      let shared := ratchet.secret.agree b.signedPreKey.key
      { contacts := [contactWith c s b (e.supply e.drawn 32)]
        derivations := [.agreed agreed.secret] ++
          [.root agreed.secret shared, .chain agreed.secret shared] ++ ratchet.derivedNext }

/-- What wrapping a content key uses. What fails uses nothing. -/
def useToWrap (c : Settings) (s : Store) (device : DeviceAddress) (bundle : Option PreKeyBundle)
    (key : ContentKey) (e : Entropy) : KeyUse :=
  match wrap c s device bundle key e with
  | .error _ _ => .nothing
  | .ok _ _ =>
    match s.loadSession device, bundle with
    | .ok (some record), _ => ⟨[], record.current.ratchet.derivedNext⟩
    | .ok none, some b => useToStart c s b e
    | _, _ => .nothing

variable {c : Settings} {s s' : Store} {device : DeviceAddress} {t : KeyTransport}
  {e e' e₁ : Entropy}

/-- No session is built where one was agreed with the ephemeral key that the header names. -/
theorem started_of_hasBaseKey {record : SessionRecord}
    (hl : s.loadSession device = .ok (some record))
    (hhas : ∀ header, t.preKey = some header → record.hasBaseKey header.baseKey = true) :
    started? c s device t = none := by
  unfold started?
  rw [hl]
  cases hpre : t.preKey with
  | none => rfl
  | some header => exact if_pos (hhas header hpre)

/-- A session is built where none was agreed with the ephemeral key that the header names. -/
theorem started_of_built {existing : Option SessionRecord}
    (hl : s.loadSession device = .ok existing) {header : PreKeyHeader}
    (hpre : t.preKey = some header)
    (hno : ∀ session ∈ existing.elim [] SessionRecord.sessions,
      ¬ SessionRecord.agreedWith (some header.baseKey) session = true)
    {contact : Contact} {session : Session}
    (hbuilt : built? c s header = some (contact, session)) :
    started? c s device t = some (contact, session) := by
  unfold started?
  rw [hl, hpre]
  cases existing with
  | none => exact hbuilt
  | some record =>
    have hhas : ¬ record.hasBaseKey header.baseKey = true := by
      intro hhas
      obtain ⟨session, hs, ha⟩ := List.any_eq_true.mp hhas
      exact hno session hs ha
    exact (if_neg hhas).trans hbuilt

/-- What is read in a session that there is uses the keys of that session. -/
theorem useToUnwrap_of_reader {p : Unwrapped × Store} (h : unwrap c s device t e = .ok p e')
    {record : SessionRecord} (hl : s.loadSession device = .ok (some record))
    (hhas : ∀ header, t.preKey = some header → record.hasBaseKey header.baseKey = true)
    {session : Session}
    (hreader : SessionRecord.reader? t.message (t.preKey.map (·.baseKey)) record.sessions e =
      some (session, e₁)) :
    useToUnwrap c s device t e = ⟨[], session.ratchet.derivedFor t.message e₁⟩ := by
  simp only [useToUnwrap, h, started_of_hasBaseKey hl hhas, hl, hreader]

theorem built_of_inbound {header : PreKeyHeader} {session : Session}
    (h : inbound c s header = .ok session) :
    ∃ signed, built? c s header = some (contactOf c s header signed, session) := by
  obtain ⟨signed, -, hsigned, -⟩ := inbound_eq_ok_iff.mp h
  exact ⟨signed, by simp only [built?, hsigned, h]⟩

omit [CipherSuite] in
/-- A one-time pre-key that is named takes part. -/
theorem bind_get_of_named {id? : Option UInt32} {oneTime : Option OneTimePreKey}
    (h : namedOneTimePreKey s id? = .ok oneTime) : id?.bind s.oneTimePreKeys.get? = oneTime := by
  cases id? with
  | none =>
    cases h
    rfl
  | some id =>
    rw [namedOneTimePreKey] at h
    split at h
    · next key hkey =>
      cases h
      exact hkey
    · cases h

/-- A session that is built for a header starts from the secret that its contact tells. -/
theorem secret_of_built {header : PreKeyHeader} {contact : Contact} {session : Session}
    (h : built? c s header = some (contact, session)) :
    contact.secret = session.ratchet.rootKey := by
  unfold built? at h
  split at h
  · next signed session' hget hbuilt =>
    cases h
    obtain ⟨signed', oneTime, hsigned, honeTime, rfl⟩ := inbound_eq_ok_iff.mp hbuilt
    cases hget.symm.trans hsigned
    dsimp only [contactOf, Contact.secret, Ratchet.respond]
    rw [bind_get_of_named honeTime, Agreement.respond_eq_derive]
  · cases h

theorem secret_of_started {contact : Contact} {session : Session}
    (h : started? c s device t = some (contact, session)) :
    contact.secret = session.ratchet.rootKey := by
  unfold started? at h
  split at h
  · split at h
    · cases h
    · exact secret_of_built h
  · exact secret_of_built h
  · cases h

/-- What is read in a session built for it uses the secret of that session, and its keys. -/
theorem useToUnwrap_of_built {p : Unwrapped × Store} (h : unwrap c s device t e = .ok p e')
    {existing : Option SessionRecord} (hl : s.loadSession device = .ok existing)
    {header : PreKeyHeader} (hpre : t.preKey = some header)
    (hno : ∀ session ∈ existing.elim [] SessionRecord.sessions,
      ¬ SessionRecord.agreedWith (some header.baseKey) session = true)
    {contact : Contact} {session : Session}
    (hbuilt : built? c s header = some (contact, session)) :
    useToUnwrap c s device t e =
      { contacts := [contact]
        derivations :=
          .agreed session.ratchet.rootKey :: session.ratchet.derivedFor t.message e } := by
  simp only [useToUnwrap, h, started_of_built hl hpre hno hbuilt]

/-- What is sent in a session that there is uses the keys of that session. -/
theorem useToWrap_of_loaded {bundle : Option PreKeyBundle} {key : ContentKey}
    {p : KeyTransport × Store} (h : wrap c s device bundle key e = .ok p e')
    {record : SessionRecord} (hl : s.loadSession device = .ok (some record)) :
    useToWrap c s device bundle key e = ⟨[], record.current.ratchet.derivedNext⟩ := by
  simp only [useToWrap, h, hl]

/-- What is sent in a session that is started for it uses the secret of that session, and its
keys. -/
theorem useToWrap_of_started {b : PreKeyBundle} {key : ContentKey} {p : KeyTransport × Store}
    (h : wrap c s device (some b) key e = .ok p e') (hl : s.loadSession device = .ok none) :
    useToWrap c s device (some b) key e = useToStart c s b e := by
  simp only [useToWrap, h, hl]

/-- A session is started from a secret that is agreed on with the owner of the bundle. -/
theorem exists_of_outbound {b : PreKeyBundle} {session : Session}
    (h : outbound c s b e = .ok session e') :
    ∃ contact ad e₁, Ratchet.initiate contact.secret b.signedPreKey.key c.maxSkip ad e₁ =
        .ok session.ratchet e' ∧
      useToStart c s b e =
        { contacts := [contact]
          derivations := [.agreed contact.secret] ++
            [.root contact.secret (session.ratchet.secret.agree b.signedPreKey.key),
              .chain contact.secret (session.ratchet.secret.agree b.signedPreKey.key)] ++
            session.ratchet.derivedNext } := by
  obtain ⟨agreed, ratchet, e₁, ha, hr, rfl⟩ := outbound_eq_ok_iff.mp h
  have hsecret : agreed.secret = (contactWith c s b (e.supply e.drawn 32)).secret :=
    Agreement.secret_of_initiate ha
  refine ⟨contactWith c s b (e.supply e.drawn 32), _, e₁, hsecret ▸ hr, ?_⟩
  rw [← hsecret]
  simp only [useToStart, ha, hr]

/-- The ratchet of a session that was just built starts from the secret. -/
theorem exists_of_inbound {header : PreKeyHeader} {session : Session}
    (h : inbound c s header = .ok session) :
    ∃ own ad, session.ratchet = Ratchet.respond session.ratchet.rootKey own c.maxSkip ad := by
  obtain ⟨signed, oneTime, -, -, rfl⟩ := inbound_eq_ok_iff.mp h
  exact ⟨_, _, rfl⟩

end KeyWrap

/-! ## What the sessions hold -/

variable [CipherSuite] {made : List Derivation} {device : DeviceAddress} {s s' : Store}
  {record : SessionRecord} {e e' : Entropy} {c : KeyWrap.Settings}

/-- The sessions stored for a device hold unspent keys. -/
def Store.HoldsUnspent (device : DeviceAddress) (made : List Derivation) (s : Store) : Prop :=
  ∃ ratchets, UnspentIn made ratchets ∧ ∀ bytes, s.sessions[device]? = some bytes →
    ∃ record : SessionRecord, bytes = record.serialize ∧ ratchets = record.ratchets

namespace Store.HoldsUnspent

/-- The sessions may be forgotten. -/
theorem nil (h : s.HoldsUnspent device made) : UnspentIn made [] := by
  obtain ⟨ratchets, hu, -⟩ := h
  exact hu.subperm List.nil_subperm

/-- What is stored stays, or is forgotten. -/
theorem of_kept (h : s.HoldsUnspent device made)
    (hs : ∀ bytes, s'.sessions[device]? = some bytes → s.sessions[device]? = some bytes) :
    s'.HoldsUnspent device made := by
  obtain ⟨ratchets, hu, hstored⟩ := h
  exact ⟨ratchets, hu, fun bytes hb => hstored bytes (hs bytes hb)⟩

theorem load (h : s.HoldsUnspent device made) (hl : s.loadSession device = .ok (some record)) :
    UnspentIn made record.ratchets := by
  obtain ⟨ratchets, hu, hstored⟩ := h
  obtain ⟨bytes, hb, hd⟩ := Store.exists_of_loadSession hl
  obtain ⟨record', rfl, rfl⟩ := hstored bytes hb
  rw [SessionRecord.eq_of_deserialize_serialize hd]
  exact hu

theorem save (s : Store) (h : UnspentIn made record.ratchets) :
    (s.saveSession device record).HoldsUnspent device made := by
  refine ⟨record.ratchets, h, fun bytes hb => ⟨record, ?_, rfl⟩⟩
  exact Option.some.inj (hb.symm.trans Std.ExtTreeMap.getElem?_insert_self)

end Store.HoldsUnspent

/-- A session that reads joins the others again, unless there are too many. -/
theorem UnspentIn.decrypt_session {session session' : Session} {others previous : List Session}
    {m : RatchetMessage} {p : Bytes}
    (h : UnspentIn made (session.ratchet :: others.map (·.ratchet)))
    (hd : session.decrypt m e = .ok (p, session') e') (hp : previous.Sublist others)
    (hdistinct : Distinct (made ++ session.ratchet.derivedFor m e)) :
    UnspentIn (made ++ session.ratchet.derivedFor m e)
        (session'.ratchet :: previous.map (·.ratchet)) ∧
      ∃ key, session.ratchet.opens? m e = some key ∧
        .cipher key ∈ session.ratchet.derivedFor m e ∧ .cipher key ∉ made := by
  obtain ⟨ratchet, hr, rfl⟩ := Session.decrypt_eq_ok_iff.mp hd
  obtain ⟨hu, hkey⟩ := h.decrypt hr hdistinct
  refine ⟨hu.subperm ?_, hkey⟩
  exact ((hp.map _).cons_cons ratchet).subperm

/-! ## Unwrapping and wrapping -/

namespace Store.HoldsUnspent

variable {t : KeyTransport}

/-- A content key is opened under a key that was not used before, and what is stored afterwards
holds unspent keys again. -/
theorem unwrap {u : KeyWrap.Unwrapped} (h : s.HoldsUnspent device made)
    (hu : KeyWrap.unwrap c s device t e = .ok (u, s') e')
    (hnew : ∀ contact ∈ (KeyWrap.useToUnwrap c s device t e).contacts,
      .agreed contact.secret ∉ made)
    (hd : Distinct (made ++ (KeyWrap.useToUnwrap c s device t e).derivations)) :
    s'.HoldsUnspent device (made ++ (KeyWrap.useToUnwrap c s device t e).derivations) ∧
      ∃ key, .cipher key ∈ (KeyWrap.useToUnwrap c s device t e).derivations ∧
        .cipher key ∉ made ∧
        CipherSuite.Opens (Derivation.cipher key).output t.message.ciphertext := by
  obtain ⟨existing, reading, hl, hread, -, -, -, -, rfl⟩ := KeyWrap.exists_of_unwrap_eq_ok hu
  have hstored : ∀ {made : List Derivation}, UnspentIn made reading.record.ratchets →
      (KeyWrap.withoutConsumed (s.saveSession device reading.record) u.consumed).HoldsUnspent
        device made := fun hr => (save s hr).of_kept fun bytes hb => by
    rwa [KeyWrap.withoutConsumed_sessions] at hb
  rcases KeyWrap.exists_of_readTransport hread with
    ⟨record, rfl, hhas, hknown⟩ | ⟨header, hpre, hno, hnew'⟩
  · obtain ⟨session, others, e₁, houtcome, hreader, hsession, -⟩ :=
      SessionRecord.exists_of_decrypt_eq_ok (KeyWrap.decrypt_of_readKnown hknown).1
    rw [KeyWrap.useToUnwrap_of_reader hu hl hhas hreader] at hd ⊢
    have hsame : (session.ratchet :: others.map (·.ratchet)).Subperm record.ratchets :=
      (houtcome.tried.symm.map Session.ratchet).subperm
    obtain ⟨hafter, key, hopens, hmem, hnotMem⟩ :=
      ((h.load hl).subperm hsame).decrypt_session hsession houtcome.previous hd
    exact ⟨hstored hafter, key, hmem, hnotMem, Ratchet.exists_of_opens hopens⟩
  · obtain ⟨session, session', hbuilt, hsession, hreading⟩ := KeyWrap.exists_of_readNew hnew'
    obtain ⟨signed, hcontact⟩ := KeyWrap.built_of_inbound hbuilt
    have hsecret := KeyWrap.secret_of_built hcontact
    rw [KeyWrap.useToUnwrap_of_built hu hl hpre hno hcontact] at hd hnew ⊢
    rw [List.append_cons] at hd ⊢
    have hothers : UnspentIn made ((existing.elim [] SessionRecord.sessions).map (·.ratchet)) := by
      cases existing with
      | none => exact h.nil
      | some record => exact h.load hl
    obtain ⟨own, ad, hr⟩ := KeyWrap.exists_of_inbound hbuilt
    have hnotMade : .agreed session.ratchet.rootKey ∉ made :=
      hsecret ▸ hnew _ List.mem_cons_self
    have hjoined := hothers.respond hnotMade
      (hd.subset (List.subset_append_left _ _)) own c.maxSkip ad
    rw [← hr] at hjoined
    obtain ⟨hafter, key, hopens, hmem, hnotMem⟩ :=
      hjoined.decrypt_session hsession (List.take_sublist SessionRecord.archiveLimit _) hd
    refine ⟨hstored ?_, key, List.mem_cons_of_mem _ hmem,
      fun hmade => hnotMem (List.mem_append_left _ hmade), Ratchet.exists_of_opens hopens⟩
    rw [hreading]
    cases existing with
    | none => exact hafter
    | some record => exact hafter

/-- Sending keeps the keys that are held unspent. -/
theorem wrap {bundle : Option PreKeyBundle} {key : ContentKey} (h : s.HoldsUnspent device made)
    (hw : KeyWrap.wrap c s device bundle key e = .ok (t, s') e')
    (hnew : ∀ contact ∈ (KeyWrap.useToWrap c s device bundle key e).contacts,
      .agreed contact.secret ∉ made)
    (hd : Distinct (made ++ (KeyWrap.useToWrap c s device bundle key e).derivations)) :
    s'.HoldsUnspent device (made ++ (KeyWrap.useToWrap c s device bundle key e).derivations) := by
  obtain ⟨record, session, hrecord, hencrypt, -, rfl⟩ := KeyWrap.wrap_eq_ok_iff.mp hw
  obtain ⟨ratchet, hr, rfl⟩ := Session.encrypt_eq_ok_iff.mp hencrypt
  have hsent : ∀ {made : List Derivation}, UnspentIn made record.ratchets →
      Distinct (made ++ record.current.ratchet.derivedNext) →
      (s.saveSession device { record with current := { record.current with ratchet } }).HoldsUnspent
        device (made ++ record.current.ratchet.derivedNext) := by
    intro made hheld hd
    refine save s ?_
    have hafter := hheld.encrypt key.bytes.toList hd
    rw [endState_of_ok hr] at hafter
    exact hafter
  rcases KeyWrap.recordFor_eq_ok_iff.mp hrecord with
    ⟨hl, rfl⟩ | ⟨hl, b, session, rfl, hstarted, rfl⟩
  · rw [KeyWrap.useToWrap_of_loaded hw hl] at hd ⊢
    exact hsent (h.load hl) hd
  · obtain ⟨contact, ad, e₁, hinitiate, huse⟩ := KeyWrap.exists_of_outbound hstarted
    rw [KeyWrap.useToWrap_of_started hw hl, huse] at hd hnew ⊢
    rw [← List.append_assoc, ← List.append_assoc] at hd ⊢
    have hheld := h.nil.initiate (hnew _ List.mem_cons_self) hinitiate
      (hd.subset (List.subset_append_left _ _))
    exact hsent hheld hd

end Store.HoldsUnspent

end MultiDevice
