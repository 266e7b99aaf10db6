import Mathlib.Data.List.Forall2
import MultiDevice.Proofs.Messenger.Authorship
import MultiDevice.Proofs.Messenger.Traffic
import MultiDevice.Proofs.Messenger.Vouching

/-!
# What a messenger encrypts and opens

For an envelope a messenger encrypts the payload under a content key, and the content key itself
once for every recipient, under a message key of the session. What it opens is one such message and
then one payload. Nothing else that it is asked for uses the cipher.

## Main definitions

* `Sealed`, `Opening`: an encryption, and a text that is opened
* `Request.sealed`, `Request.openings`: what a request encrypts, and what it opens
* `Sealed.Carries`: an encryption is the key transport of an envelope

## Main results

* `Request.sealed_cases`: what a request encrypts is an envelope, part by part
* `Request.exists_opening_of_opened`, `Messenger.opening_of_unwrapFrom`: a content key is unwrapped
  by opening its transport, and a payload is opened under the content key after that
-/

namespace MultiDevice

/-! ## Encryptions -/

/-- What something is encrypted for. -/
inductive Purpose where
  /-- It is the payload of an envelope. -/
  | payload
  /-- It is a content key on its way to a device. -/
  | transport
  /-- It was not a messenger that encrypted it. -/
  | own
  deriving DecidableEq

/-- An encryption: the key, the nonce, the data that is authenticated with it, and what was
encrypted. -/
structure Sealed where
  /-- What it is for. -/
  purpose : Purpose
  /-- The cipher key. -/
  key : Block 32
  /-- The nonce. -/
  nonce : Block 12
  /-- The data that is authenticated with it. -/
  data : Bytes
  /-- What was encrypted. -/
  plaintext : Bytes
  deriving DecidableEq

/-- A text that is opened, and what it is opened with. -/
structure Opening where
  /-- The cipher key. -/
  key : Block 32
  /-- The nonce. -/
  nonce : Block 12
  /-- The data that is authenticated with it. -/
  data : Bytes
  /-- The encrypted text. -/
  text : Bytes

/-- A content key that a device unwrapped. -/
structure Opened where
  /-- The identity of the device when it did. -/
  identity : PublicKey
  /-- The message that the content key came in. -/
  message : RatchetMessage
  /-- The content key. -/
  key : ContentKey

variable [CipherSuite]

/-- The encrypted text. -/
def Sealed.text (y : Sealed) : Bytes := CipherSuite.encrypt y.key y.nonce y.data y.plaintext

/-- What is opened was encrypted, and with the key, the nonce and the data that it is opened with,
whoever encrypted it. -/
def Opening.Genuine (o : Opening) (made : List Sealed) : Prop :=
  (∃ y ∈ made, y.text = o.text) ∧
    ∀ y ∈ made, y.text = o.text → y.key = o.key ∧ y.nonce = o.nonce ∧ y.data = o.data

instance (o : Opening) (made : List Sealed) : Decidable (o.Genuine made) :=
  inferInstanceAs (Decidable (_ ∧ _))

/-- Something genuine opens to what was encrypted. -/
theorem Opening.Genuine.plaintext (hseals : OpensSealed) {o : Opening} {made : List Sealed}
    (h : o.Genuine made) {y : Sealed} (hy : y ∈ made) (htext : y.text = o.text)
    {plaintext : Bytes}
    (hopen : CipherSuite.decrypt? o.key o.nonce o.data o.text = some plaintext) :
    y.plaintext = plaintext := by
  obtain ⟨hkey, hnonce, hdata⟩ := h.2 y hy htext
  rw [← htext, ← hkey, ← hnonce, ← hdata, Sealed.text, hseals] at hopen
  exact Option.some.inj hopen

/-- The encryption of the next message of a ratchet. -/
def Ratchet.sealed (r : Ratchet) (plaintext : Bytes) : List Sealed :=
  match r.sending, r.encrypt plaintext with
  | some chain, .ok m _ =>
    [{ purpose := .transport
       key := (deriveCipher chain.messageKey).1
       nonce := (deriveCipher chain.messageKey).2
       data := vouched r.associatedData m.header
       plaintext }]
  | _, _ => []

/-- The encryption of a content key on its way to a device. -/
def KeyWrap.sealed (c : Settings) (s : Store) (device : DeviceAddress)
    (bundle : Option PreKeyBundle) (key : ContentKey) (e : Entropy) : List Sealed :=
  match recordFor c s device bundle e with
  | .ok record _ => record.current.ratchet.sealed key.bytes.toList
  | .error _ _ => []

namespace Messenger

/-- The encryption of a content key on its way to a device whose bundle is fetched if it is needed.
What fails encrypts nothing. -/
def sealedFor (key : ContentKey) (device : DeviceAddress) (s : Scene) : List Sealed :=
  match wrapFor key device s, bundleFor device s with
  | .ok _ _, .ok bundle t =>
    KeyWrap.sealed t.messenger.settings.keyWrap t.messenger.store device bundle key t.entropy
  | _, _ => []

/-- The encryptions of a content key on its way to several devices. -/
def sealedForAll (key : ContentKey) : List DeviceAddress → Scene → List Sealed
  | [], _ => []
  | device :: rest, s =>
    sealedFor key device s ++ sealedForAll key rest (endState (wrapFor key device) s)

/-- The content key that a device unwraps, with the message that it came in. -/
def unwrapped? (sender : DeviceAddress) (envelope : Envelope) (s : Scene) :
    Option (KeyTransport × ContentKey) :=
  if envelope.sender = sender then
    match envelope.keyFor s.messenger.address with
    | none => none
    | some transport =>
      match unwrapFrom sender transport s with
      | .ok u _ => some (transport, u.key)
      | .error _ _ => none
  else none

end Messenger

/-- A message as a text that is opened under a message key. -/
def Ratchet.opening (r : Ratchet) (messageKey : Block 32) (m : RatchetMessage) : Opening where
  key := (deriveCipher messageKey).1
  nonce := (deriveCipher messageKey).2
  data := vouched r.associatedData m.header
  text := m.ciphertext

/-- The message of a transport as a text that is opened. -/
def KeyWrap.opening? (c : Settings) (s : Store) (device : DeviceAddress) (t : KeyTransport)
    (e : Entropy) : Option Opening :=
  (opener? c s device t e).bind fun (r, e) =>
    (r.opens? t.message e).map fun messageKey => r.opening messageKey t.message

/-- A payload as a text that is opened. -/
def ContentKey.opening? (key : ContentKey) (payload : Payload) (sender : DeviceAddress) :
    Option Opening :=
  match key.decrypt payload sender with
  | .ok _ =>
    some { key := key.bytes, nonce := payload.nonce, data := sender.toBytes
           text := payload.ciphertext }
  | .error _ => none

namespace Request

/-- What a request encrypts: a payload, and its key for every recipient. -/
def sealed (s : Scene) : Request → List Sealed
  | .encryptFor recipients plaintext allowed =>
    match Messenger.prepare recipients plaintext allowed s with
    | .ok (verdict, key, payload) t =>
      { purpose := .payload, key := key.bytes, nonce := payload.nonce
        data := s.messenger.address.toBytes, plaintext } ::
        Messenger.sealedForAll key verdict.accepted.toList t
    | .error _ _ => []
  | _ => []

/-- The content key that a request unwraps. -/
def opened? (s : Scene) : Request → Option Opened
  | .decrypt sender envelope =>
    (Messenger.unwrapped? sender envelope s).map fun (transport, key) =>
      { identity := s.messenger.store.identity.publicKey, message := transport.message, key }
  | _ => none

/-- What a request opens: the transport of a content key, and the payload encrypted under it. -/
def openings (s : Scene) : Request → List Opening
  | .decrypt sender envelope =>
    match Messenger.unwrapped? sender envelope s with
    | some (transport, key) =>
      (KeyWrap.opening? s.messenger.settings.keyWrap s.messenger.store sender transport
        s.entropy).toList ++ (key.opening? envelope.payload sender).toList
    | none => []
  | _ => []

end Request

/-! ## The parts of an envelope -/

/-- An encryption is the key transport for a recipient, as a device makes it that has a given scene
afterwards: it encrypts the content key, and it is authenticated with two identities, of which one
is that of the device and the other the one on record for the recipient. -/
structure Sealed.Carries (y : Sealed) (after : Scene) (key : ContentKey) (k : RecipientKey) :
    Prop where
  purpose : y.purpose = .transport
  plaintext : y.plaintext = key.bytes.toList
  text : y.text = k.transport.message.ciphertext
  between : ∃ ad remote known,
    y.data = Ratchet.vouched ad k.transport.message.header ∧
    (ad = Agreement.associatedData after.messenger.store.identity.publicKey remote ∨
      ad = Agreement.associatedData remote after.messenger.store.identity.publicKey) ∧
    (after.trust.record k.recipient).identity = some known ∧ known.SamePoint remote

/-- What happens to other devices afterwards does not matter. -/
theorem Sealed.Carries.congr_after {y : Sealed} {t t' : Scene} {key : ContentKey}
    {k : RecipientKey} (h : y.Carries t key k) (ht : SameFor k.recipient t t')
    (hidentity : t'.messenger.store.identity = t.messenger.store.identity) :
    y.Carries t' key k := by
  obtain ⟨ad, remote, known, hdata, had, hknown, hsame⟩ := h.between
  refine ⟨h.purpose, h.plaintext, h.text, ad, remote, known, hdata, ?_, ?_, hsame⟩
  · rw [hidentity]
    exact had
  · rw [ht.2]
    exact hknown

/-- A ratchet encrypts a message under its next message key. -/
theorem Ratchet.exists_sealed_of_encrypt {r r' : Ratchet} {plaintext : Bytes} {m : RatchetMessage}
    (h : r.encrypt plaintext = .ok m r') :
    ∃ y, r.sealed plaintext = [y] ∧ y.purpose = .transport ∧ y.plaintext = plaintext ∧
      y.text = m.ciphertext ∧ y.data = vouched r.associatedData m.header := by
  have hm := h
  unfold encrypt at h
  split at h
  · cases h
  · next chain hchain =>
    split at h
    · cases h
    · next key next hadvance =>
      cases h
      obtain ⟨rfl, -⟩ := Chain.eq_of_advance hadvance
      exact ⟨_, by simp only [sealed, hchain, hm]; rfl, rfl, rfl, rfl, rfl⟩

namespace Messenger

variable {key : ContentKey} {device : DeviceAddress} {s t : Scene}

/-- What is encrypted for a device is the transport that it is sent. -/
theorem exists_sealedFor_of_wrapFor {transport : KeyTransport}
    (hp : Pinned s.sessions s.trust) (hv : s.messenger.store.Vouching)
    (h : wrapFor key device s = .ok transport t) :
    ∃ y, sealedFor key device s = [y] ∧ y.Carries t key { recipient := device, transport } := by
  have hwrap := h
  obtain ⟨bundle, t₁, hb, h⟩ := bind_eq_ok_iff.mp h
  have hstored : Leaves (fun s : Scene => (s.sessions, s.messenger.store.identity))
      (bundleFor device) := bundleFor_leaves (fun _ _ => rfl) (fun _ _ => rfl) device
  obtain ⟨hsessions, hidentity⟩ := Prod.mk.inj (hstored.eq_of_ok hb)
  obtain ⟨_, t₂, hget, h⟩ := bind_eq_ok_iff.mp h
  cases hget
  obtain ⟨st, e, hw, rfl⟩ := Action.changeStore_eq_ok_iff.mp h
  obtain ⟨record, session', hr, he, -, rfl⟩ := KeyWrap.wrap_eq_ok_iff.mp hw
  obtain ⟨ratchet, hratchet, -⟩ := Session.encrypt_eq_ok_iff.mp he
  obtain ⟨y, hy, hpurpose, hplaintext, htext, hdata⟩ := Ratchet.exists_sealed_of_encrypt hratchet
  obtain ⟨known, hrecord, hsame, -⟩ := exists_known_of_recordFor hp hb hr
  have hbetween := KeyWrap.between_of_recordFor
    (SessionProperty.vouching.congr hsessions hidentity hv) hr
  refine ⟨y, ?_, hpurpose, hplaintext, htext, _, _, known, hdata, hbetween, ?_, hsame⟩
  · simp only [sealedFor, hwrap, hb, KeyWrap.sealed, hr, hy]
  · exact congrArg TrustRecord.identity hrecord

/-- The encryptions for several devices are the transports that they are sent, in their order. -/
theorem sealedForAll_carries {devices : List DeviceAddress} {keys : List RecipientKey}
    {failures : List DeviceFailure} (hp : Pinned s.sessions s.trust)
    (hv : s.messenger.store.Vouching) (hn : devices.Nodup)
    (h : wrapAll key devices s = .ok (keys, failures) t) :
    List.Forall₂ (fun y k => Sealed.Carries y t key k) (sealedForAll key devices s) keys := by
  induction devices generalizing s keys failures with
  | nil =>
    cases h
    exact .nil
  | cons device rest ih =>
    obtain ⟨hd, hn⟩ := List.nodup_cons.mp hn
    have hp₁ := wrapFor_pinned hp key device
    have hv₁ := SessionProperty.vouching.wrapFor key device s hv
    cases hw : wrapFor key device s with
    | ok transport t₁ =>
      rw [endState_of_ok hw] at hp₁ hv₁
      rw [wrapAll_cons_of_ok rest hw] at h
      obtain ⟨⟨keys', failures'⟩, hr, hk⟩ := map_eq_ok_iff.mp h
      cases hk
      obtain ⟨y, hy, hcarries⟩ := exists_sealedFor_of_wrapFor hp hv hw
      have hsame := wrapAll_sameFor key hd t₁
      have hidentity := (wrapAll_preserves (fun key device u hu => Sending.trans hu
        (sending_wrapFor key device u)) key rest (Sending.refl t₁)).1.identity
      rw [endState_of_ok hr] at hsame hidentity
      rw [sealedForAll, hy, endState_of_ok hw]
      exact .cons (hcarries.congr_after hsame hidentity) (ih hp₁ hv₁ hn hr)
    | error err t₁ =>
      rw [endState_of_error hw] at hp₁ hv₁
      rw [wrapAll_cons_of_error rest hw] at h
      obtain ⟨⟨keys', failures'⟩, hr, hk⟩ := map_eq_ok_iff.mp h
      cases hk
      rw [sealedForAll, sealedFor, hw, endState_of_error hw]
      exact ih hp₁ hv₁ hn hr

/-- What is prepared is a payload that was encrypted for the address of the sender. -/
theorem exists_of_prepare {recipients : List Account} {plaintext : Bytes} {allowed : DeviceSet}
    {verdict : TrustVerdict} {payload : Payload}
    (h : prepare recipients plaintext allowed s = .ok (verdict, key, payload) t) :
    payload.ciphertext =
      CipherSuite.encrypt key.bytes payload.nonce s.messenger.address.toBytes plaintext := by
  rw [prepare, bind_get] at h
  obtain ⟨devices, t₁, hx, h⟩ := bind_eq_ok_iff.mp h
  obtain ⟨verdict', t₂, hx, h⟩ := bind_eq_ok_iff.mp h
  obtain ⟨key', t₃, hkey, h⟩ := bind_eq_ok_iff.mp h
  obtain ⟨payload', t₄, hpayload, h⟩ := bind_eq_ok_iff.mp h
  cases h
  obtain ⟨e, hencrypt, -⟩ := Action.draw_eq_ok_iff.mp hpayload
  obtain ⟨nonce, e', -, hencrypt⟩ := bind_eq_ok_iff.mp hencrypt
  cases hencrypt
  rfl

end Messenger

/-- A content key is unwrapped by opening the message that it came in, which is authenticated with
two identities, of which one is that of the device. -/
theorem KeyWrap.exists_opening_of_unwrap {c : Settings} {s s' : Store} {device : DeviceAddress}
    {t : KeyTransport} {u : Unwrapped} {e e' : Entropy} (hs : s.Vouching)
    (h : unwrap c s device t e = .ok (u, s') e') :
    ∃ g, opening? c s device t e = some g ∧ g.text = t.message.ciphertext ∧
      CipherSuite.decrypt? g.key g.nonce g.data g.text = some u.key.bytes.toList ∧
      ∃ ad remote, g.data = Ratchet.vouched ad t.message.header ∧
        (ad = Agreement.associatedData s.identity.publicKey remote ∨
          ad = Agreement.associatedData remote s.identity.publicKey) := by
  obtain ⟨r, e₁, messageKey, hopener, hopens, hdecipher, remote, had⟩ :=
    exists_opener_of_unwrap hs h
  refine ⟨r.opening messageKey t.message, ?_, rfl, Ratchet.decrypt_of_decipher hdecipher, _, remote,
    rfl, had⟩
  simp only [opening?, hopener, hopens, Option.bind_some, Option.map_some]

/-- An encryption is the payload of an envelope. -/
structure Sealed.Holds (y : Sealed) (x : Authored) : Prop where
  purpose : y.purpose = .payload
  key : y.key = x.key.bytes
  data : y.data = x.envelope.sender.toBytes
  payload : x.envelope.payload = { nonce := y.nonce, ciphertext := y.text }

namespace Request

variable {s : Scene} {request : Request}

/-- What a request encrypts is the payload of the envelope that it makes, and the content key for
every recipient of it. A request that makes no envelope encrypts nothing. -/
theorem sealed_cases (hp : Pinned s.sessions s.trust) (hv : s.messenger.store.Vouching) :
    (request.authored? s = none ∧ request.sealed s = []) ∨
      ∃ x y ys, request.authored? s = some x ∧ request.sealed s = y :: ys ∧ y.Holds x ∧
        List.Forall₂ (fun y k => Sealed.Carries y (request.perform s) x.key k) ys
          x.envelope.keys := by
  unfold sealed
  split
  · next recipients plaintext allowed =>
    split
    · next verdict key payload t hprepare =>
      right
      cases hencrypt : Messenger.encryptFor recipients plaintext allowed s with
      | error err s' =>
        cases hprepare.symm.trans (Messenger.prepare_of_encryptFor_eq_error hencrypt)
      | ok encryption s' =>
        have hx : authored? s (.encryptFor recipients plaintext allowed) =
            some { key, envelope := encryption.envelope } := by
          simp only [authored?, hprepare, hencrypt]
        obtain ⟨verdict', key', payload', t', keys, failures, hprepare', hwrap, rfl⟩ :=
          Messenger.exists_of_encryptFor_eq_ok hencrypt
        cases hprepare.symm.trans hprepare'
        have hview : Leaves (fun s : Scene => s.messenger)
            (Messenger.prepare recipients plaintext allowed) :=
          Messenger.prepare_leaves (fun _ _ => rfl) recipients plaintext allowed
        have hmessenger := hview.eq_of_ok hprepare
        have hp₁ : Pinned t.sessions t.trust := by
          rw [Scene.sessions, Scene.trust, hmessenger]
          exact hp
        have hv₁ : t.messenger.store.Vouching := by
          rw [hmessenger]
          exact hv
        refine ⟨_, _, _, hx, rfl, ⟨rfl, rfl, rfl, ?_⟩, ?_⟩
        · exact congrArg (Payload.mk payload.nonce) (Messenger.exists_of_prepare hprepare)
        · rw [perform, endState_of_ok hencrypt]
          exact Messenger.sealedForAll_carries hp₁ hv₁ verdict.accepted.nodup_toList hwrap
    · next err t hprepare =>
      left
      refine ⟨?_, rfl⟩
      simp only [authored?, hprepare]
  · next hother =>
    left
    refine ⟨?_, rfl⟩
    unfold authored?
    split
    · next recipients plaintext allowed => exact absurd rfl (hother recipients plaintext allowed)
    · rfl

theorem exists_of_mem_sealed (hp : Pinned s.sessions s.trust) (hv : s.messenger.store.Vouching)
    {y : Sealed} (hy : y ∈ request.sealed s) :
    ∃ x, request.authored? s = some x ∧
      (y.Holds x ∨ ∃ k ∈ x.envelope.keys, y.Carries (request.perform s) x.key k) := by
  rcases request.sealed_cases hp hv with ⟨-, hnone⟩ | ⟨x, y₀, ys, hx, hsealed, hholds, hcarries⟩
  · rw [hnone] at hy
    cases hy
  · rw [hsealed] at hy
    rcases List.mem_cons.mp hy with rfl | hy
    · exact ⟨x, hx, .inl hholds⟩
    · exact ⟨x, hx, .inr (exists_of_forall₂ hcarries hy)⟩

theorem exists_sealed_of_mem_keys (hp : Pinned s.sessions s.trust)
    (hv : s.messenger.store.Vouching) {x : Authored} (hx : request.authored? s = some x)
    {k : RecipientKey} (hk : k ∈ x.envelope.keys) :
    ∃ y ∈ request.sealed s, y.Carries (request.perform s) x.key k := by
  rcases request.sealed_cases hp hv with ⟨hnone, -⟩ | ⟨x', y₀, ys, hx', hsealed, -, hcarries⟩
  · cases hnone.symm.trans hx
  · cases hx'.symm.trans hx
    obtain ⟨y, hy, hk⟩ := exists_of_forall₂ hcarries.flip hk
    exact ⟨y, hsealed ▸ List.mem_cons_of_mem _ hy, hk⟩

/-- What a request unwraps, it opens. -/
theorem exists_opening_of_opened (hv : s.messenger.store.Vouching) {o : Opened}
    (h : request.opened? s = some o) :
    ∃ g ∈ request.openings s, g.text = o.message.ciphertext ∧
      CipherSuite.decrypt? g.key g.nonce g.data g.text = some o.key.bytes.toList ∧
      ∃ ad remote, g.data = Ratchet.vouched ad o.message.header ∧
        (ad = Agreement.associatedData o.identity remote ∨
          ad = Agreement.associatedData remote o.identity) := by
  unfold opened? at h
  split at h
  · next sender envelope =>
    obtain ⟨⟨transport, key⟩, hsome, rfl⟩ := Option.map_eq_some_iff.mp h
    have hu := hsome
    unfold Messenger.unwrapped? at hu
    split at hu
    · split at hu
      · cases hu
      · next transport' hkey =>
        split at hu
        · next u t hunwrap =>
          cases hu
          obtain ⟨st, e, hk, -⟩ := Messenger.unwrapFrom_eq_ok_iff.mp hunwrap
          obtain ⟨g, hg, hgenuine⟩ := KeyWrap.exists_opening_of_unwrap hv hk
          refine ⟨g, ?_, hgenuine⟩
          simp only [openings, hsome, hg]
          exact List.mem_append_left _ (List.mem_singleton_self _)
        · cases hu
    · cases hu
  · cases h

end Request

namespace Messenger

variable {sender : DeviceAddress} {envelope : Envelope} {s t : Scene}

theorem unwrapped_of_unwrapFrom (hsender : envelope.sender = sender) {transport : KeyTransport}
    (hkey : envelope.keyFor s.messenger.address = some transport) {u : KeyWrap.Unwrapped}
    (hu : unwrapFrom sender transport s = .ok u t) :
    unwrapped? sender envelope s = some (transport, u.key) := by
  simp only [unwrapped?, if_pos hsender, hkey, hu]

theorem opened_of_unwrapFrom (hsender : envelope.sender = sender) {transport : KeyTransport}
    (hkey : envelope.keyFor s.messenger.address = some transport) {u : KeyWrap.Unwrapped}
    (hu : unwrapFrom sender transport s = .ok u t) :
    Request.opened? s (.decrypt sender envelope) =
      some { identity := s.messenger.store.identity.publicKey, message := transport.message
             key := u.key } := by
  rw [Request.opened?, unwrapped_of_unwrapFrom hsender hkey hu, Option.map_some]

/-- A payload that is opened under the content key that was unwrapped is among what is opened. -/
theorem opening_of_unwrapFrom (hsender : envelope.sender = sender) {transport : KeyTransport}
    (hkey : envelope.keyFor s.messenger.address = some transport) {u : KeyWrap.Unwrapped}
    (hu : unwrapFrom sender transport s = .ok u t) {plaintext : Bytes}
    (hp : u.key.decrypt envelope.payload sender = .ok plaintext) :
    { key := u.key.bytes, nonce := envelope.payload.nonce, data := sender.toBytes
      text := envelope.payload.ciphertext } ∈
      Request.openings s (.decrypt sender envelope) := by
  simp only [Request.openings, unwrapped_of_unwrapFrom hsender hkey hu, ContentKey.opening?, hp]
  exact List.mem_append_right _ (List.mem_singleton_self _)

end Messenger

end MultiDevice
