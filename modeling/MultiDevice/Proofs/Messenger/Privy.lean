import MultiDevice.Proofs.Messenger.Circle

/-!
# Who a payload comes from

All recipients of an envelope are given the same content key. A payload that comes with the key
transport of an envelope is read when it opens under the content key of that envelope, whoever
encrypted it. The sender encrypts nothing else under that key, so the payload is the one of the
envelope, or was encrypted by a device that the content key reached: a recipient of the envelope, or
a device that a recipient passed the key on to.

## Main definitions

* `Circle.Sound`: what the messengers encrypted are the envelopes that they made
* `Circle.Kept`: those who were given a content key are privy to it

## Main results

* `Circle.Sound.step`, `Circle.Kept.step`: every event keeps this
* `Circle.payload_of_decrypted`: where the payload of a message that is read comes from
* `Circle.decrypted_of_payload`: every payload that opens under the content key is read
* `Circle.forgery_accepted`: a recipient makes another one read what the sender did not write

## Why a recipient is told by its identity

A transport is addressed to a device, but the network may deliver it to another one. What it is
authenticated with are two identity keys: the one of the sender and the one that the sender has on
record for the recipient. Whoever opens it has one of the two. So the devices that a content key
reaches first are those with the identities that the sender meant.
-/

namespace MultiDevice

namespace Circle

section Run

variable {ι : Type} [CipherSuite] {c : Circle ι} {event : Event ι} {events : List (Event ι)}

/-! ## What is recorded of envelopes -/

/-- What the messengers encrypted are the envelopes that they made, part by part. -/
structure Sound (c : Circle ι) : Prop where
  pinned : ∀ i, Pinned (c.scene i).sessions (c.scene i).trust
  vouching : ∀ i, (c.scene i).messenger.store.Vouching
  made : ∀ i y, (i, y) ∈ c.sealed → y.purpose ≠ .own → ∃ x, (i, x) ∈ c.posted ∧
    (y.Holds x.toAuthored ∨ ∃ k ∈ x.envelope.keys, y.Carries x.after x.key k)
  carried : ∀ i x, (i, x) ∈ c.posted → ∀ k ∈ x.envelope.keys,
    ∃ y, (i, y) ∈ c.sealed ∧ y.Carries x.after x.key k

theorem Sound.of_setUp (h : c.SetUp) : c.Sound where
  pinned i := by
    rw [show (c.scene i).sessions = ∅ from (h.provisioned i).store.2]
    exact Pinned.empty _
  vouching i := .empty (h.provisioned i).store.2
  made i y hy := by
    rw [h.sealed] at hy
    cases hy
  carried i x hx := by
    rw [h.posted] at hx
    cases hx

namespace Sound

/-- The payload that a device encrypted is that of an envelope that it made. -/
theorem exists_holds (h : c.Sound) {i : ι} {y : Sealed} (hy : (i, y) ∈ c.sealed)
    (hpurpose : y.purpose = .payload) : ∃ x, (i, x) ∈ c.posted ∧ y.Holds x.toAuthored := by
  obtain ⟨x, hx, hholds | ⟨k, -, hcarries⟩⟩ := h.made i y hy (by rw [hpurpose]; decide)
  · exact ⟨x, hx, hholds⟩
  · cases hpurpose.symm.trans hcarries.purpose

/-- The transport that a device encrypted is that of an envelope that it made. -/
theorem exists_carries (h : c.Sound) {i : ι} {y : Sealed} (hy : (i, y) ∈ c.sealed)
    (hpurpose : y.purpose = .transport) :
    ∃ x, (i, x) ∈ c.posted ∧ ∃ k ∈ x.envelope.keys, y.Carries x.after x.key k := by
  obtain ⟨x, hx, hholds | hcarries⟩ := h.made i y hy (by rw [hpurpose]; decide)
  · cases hpurpose.symm.trans hholds.purpose
  · exact ⟨x, hx, hcarries⟩

/-- Who opens the transport of an envelope unwraps the content key of the envelope. -/
theorem key_of_unwrapFrom (h : c.Sound) (hseals : OpensSealed) {sender reader : ι} {x : Posted}
    (hx : (sender, x) ∈ c.posted) {device : DeviceAddress} {envelope : Envelope}
    (hu : c.UnforgedAt (.asks reader (.decrypt device envelope)))
    (hsender : envelope.sender = device) {transport : KeyTransport}
    (hkey : envelope.keyFor (c.scene reader).messenger.address = some transport)
    (htransport : x.envelope.keyFor (c.scene reader).messenger.address = some transport)
    {u : KeyWrap.Unwrapped} {t : Scene}
    (hunwrap : Messenger.unwrapFrom device transport (c.scene reader) = .ok u t) :
    u.key = x.key := by
  obtain ⟨g, hg, htext, hopen, -⟩ := Request.exists_opening_of_opened (h.vouching reader)
    (Messenger.opened_of_unwrapFrom hsender hkey hunwrap)
  obtain ⟨k, hfind, rfl⟩ := Option.map_eq_some_iff.mp htransport
  obtain ⟨y, hy, hcarries⟩ := h.carried sender x hx k (List.mem_of_find?_eq_some hfind)
  have hplaintext := (hu g hg).plaintext hseals (List.mem_map_of_mem hy)
    (hcarries.text.trans htext.symm) hopen
  exact congrArg ContentKey.mk (Block.ext (hplaintext.symm.trans hcarries.plaintext))

/-- What a messenger encrypts in an event is part of the envelope that it makes. -/
theorem exists_of_mem_sealedIn (h : c.Sound) {i : ι} {y : Sealed} (hy : (i, y) ∈ c.sealedIn event)
    (hpurpose : y.purpose ≠ .own) : ∃ x, (i, x) ∈ c.postedIn event ∧
      (y.Holds x.toAuthored ∨ ∃ k ∈ x.envelope.keys, y.Carries x.after x.key k) := by
  cases event with
  | asks j request =>
    obtain ⟨y', hy', heq⟩ := List.mem_map.mp hy
    obtain ⟨rfl, rfl⟩ := Prod.mk.inj heq
    obtain ⟨x, hx, hparts⟩ := Request.exists_of_mem_sealed (h.pinned j) (h.vouching j) hy'
    exact ⟨{ x with after := request.perform (c.scene j) },
      List.mem_map_of_mem (Option.mem_toList.mpr hx), hparts⟩
  | seals j key nonce data plaintext =>
    obtain ⟨-, rfl⟩ := Prod.mk.inj (List.mem_singleton.mp hy)
    exact absurd rfl hpurpose
  | tells j k key => exact absurd hy List.not_mem_nil

/-- Every transport of an envelope that is made in an event is encrypted in it. -/
theorem exists_of_mem_postedIn (h : c.Sound) {i : ι} {x : Posted} (hx : (i, x) ∈ c.postedIn event)
    {k : RecipientKey} (hk : k ∈ x.envelope.keys) :
    ∃ y, (i, y) ∈ c.sealedIn event ∧ y.Carries x.after x.key k := by
  cases event with
  | asks j request =>
    obtain ⟨x', hx', heq⟩ := List.mem_map.mp hx
    obtain ⟨rfl, rfl⟩ := Prod.mk.inj heq
    obtain ⟨y, hy, hcarries⟩ := Request.exists_sealed_of_mem_keys (h.pinned j) (h.vouching j)
      (Option.mem_toList.mp hx') hk
    exact ⟨y, List.mem_map_of_mem hy, hcarries⟩
  | seals j key nonce data plaintext => exact absurd hx List.not_mem_nil
  | tells j l key => exact absurd hx List.not_mem_nil

/-- What is unwrapped in an event was genuine, and authenticated with the identity of the device. -/
theorem exists_of_mem_openedIn (h : c.Sound) (hu : c.UnforgedAt event) {i : ι} {o : Opened}
    (ho : (i, o) ∈ c.openedIn event) :
    ∃ g : Opening, g.Genuine (c.sealed.map Prod.snd) ∧ g.text = o.message.ciphertext ∧
      CipherSuite.decrypt? g.key g.nonce g.data g.text = some o.key.bytes.toList ∧
      ∃ ad remote, g.data = Ratchet.vouched ad o.message.header ∧
        (ad = Agreement.associatedData o.identity remote ∨
          ad = Agreement.associatedData remote o.identity) := by
  cases event with
  | asks j request =>
    obtain ⟨o', ho', heq⟩ := List.mem_map.mp ho
    obtain ⟨rfl, rfl⟩ := Prod.mk.inj heq
    obtain ⟨g, hg, hopening⟩ :=
      Request.exists_opening_of_opened (h.vouching j) (Option.mem_toList.mp ho')
    exact ⟨g, hu g hg, hopening⟩
  | seals j key nonce data plaintext => exact absurd ho List.not_mem_nil
  | tells j k key => exact absurd ho List.not_mem_nil

variable [DecidableEq ι]

/-- Every event keeps this. -/
theorem step (h : c.Sound) (event : Event ι) : (c.step event).Sound := by
  have hold := c.extends_step event
  refine ⟨fun i => ?_, fun i => ?_, fun i y hy hpurpose => ?_, fun i x hx k hk => ?_⟩
  · rw [scene_step]
    exact Scene.run_induction (p := fun s => Pinned s.sessions s.trust)
      (fun request s => request.perform_pinned s) (h.pinned i) _
  · rw [scene_step]
    exact Scene.run_induction (p := fun s => s.messenger.store.Vouching)
      SessionProperty.vouching.perform_of_self (h.vouching i) _
  · rcases List.mem_append.mp hy with hy | hy
    · obtain ⟨x, hx, hparts⟩ := h.made i y hy hpurpose
      exact ⟨x, hold.posted hx, hparts⟩
    · obtain ⟨x, hx, hparts⟩ := h.exists_of_mem_sealedIn hy hpurpose
      exact ⟨x, List.mem_append_right _ hx, hparts⟩
  · rcases List.mem_append.mp hx with hx | hx
    · obtain ⟨y, hy, hcarries⟩ := h.carried i x hx k hk
      exact ⟨y, hold.sealed hy, hcarries⟩
    · obtain ⟨y, hy, hcarries⟩ := h.exists_of_mem_postedIn hx hk
      exact ⟨y, List.mem_append_right _ hy, hcarries⟩

theorem run (h : c.Sound) (events : List (Event ι)) : (c.run events).Sound := by
  induction events generalizing c with
  | nil => exact h
  | cons event events ih => exact ih (h.step event)

end Sound

/-! ## Where a content key goes -/

/-- A content key is used by the messenger of its sender, for its envelope, and by those who were
given it, and these are privy to it. -/
structure Kept (c : Circle ι) (sender : ι) (x : Posted) : Prop where
  rightful : ∀ i y, (i, y) ∈ c.sealed → c.Rightful sender x.key i y
  privy : ∀ i, c.Given i x.key → c.Privy x i

namespace Kept

variable {sender : ι} {x : Posted}

theorem of_setUp (h : c.SetUp) : c.Kept sender x where
  rightful i y hy := by
    rw [h.sealed] at hy
    cases hy
  privy i hi := by
    rcases hi with ⟨p, hp, -⟩ | ⟨p, hp, -⟩
    · rw [h.opened] at hp
      cases hp
    · rw [h.told] at hp
      cases hp

variable [DecidableEq ι]

/-- A device that unwraps the content key is privy to it. -/
theorem privy_of_mem_openedIn (h : c.Kept sender x) (hs : c.Sound) (hseals : OpensSealed)
    (hunique : ∀ z, (sender, z) ∈ c.posted → z.key = x.key → z = x) (hu : c.UnforgedAt event)
    {i : ι} {o : Opened} (ho : (i, o) ∈ c.openedIn event) (hkey : o.key = x.key) :
    (c.step event).Privy x i := by
  have hold := c.extends_step event
  have hopened : (i, o) ∈ (c.step event).opened := List.mem_append_right _ ho
  obtain ⟨g, hgenuine, htext, hopen, ad, remote, hdata, had⟩ := hs.exists_of_mem_openedIn hu ho
  obtain ⟨y, hy, hytext⟩ := hgenuine.1
  have hplaintext := hgenuine.plaintext hseals hy hytext hopen
  obtain ⟨-, -, hydata⟩ := hgenuine.2 y hy hytext
  obtain ⟨⟨j, _⟩, hmem, rfl⟩ := List.mem_map.mp hy
  rw [hkey] at hplaintext
  rcases (h.rightful j _ hmem).inside hplaintext with ⟨rfl, hpurpose⟩ | hgiven
  · -- it was the sender that encrypted it, for a recipient
    obtain ⟨z, hz, k, hk, hcarries⟩ := hs.exists_carries hmem hpurpose
    have hzkey : z.key = x.key := by
      have hbytes := Block.ext (hcarries.plaintext.symm.trans hplaintext)
      exact congrArg ContentKey.mk hbytes
    obtain rfl := hunique z hz hzkey
    obtain ⟨ad', remote', known, hdata', had', hknown, hsame⟩ := hcarries.between
    obtain ⟨rfl, hheader⟩ := Ratchet.vouched_injective (hdata.symm.trans (hydata.symm.trans hdata'))
    have hciphertext := htext.symm.trans (hytext.symm.trans hcarries.text)
    refine .recipient hopened hkey hk (RatchetMessage.eq_of_header_eq hheader hciphertext) ?_
    rcases Agreement.eq_or_eq_of_associatedData had had' with hown | hremote
    · exact .inl hown
    · exact .inr ⟨known, hknown, hremote ▸ hsame⟩
  · exact .handed ((h.privy j hgiven).mono hold) (hold.sealed hmem) hplaintext hopened hkey
      (htext.symm.trans hytext.symm)

/-- Every event keeps this. -/
theorem step (h : c.Kept sender x) (hs : c.Sound) (hseals : OpensSealed)
    (hunique : ∀ z, (sender, z) ∈ c.posted → z.key = x.key → z = x)
    (hu : c.UnforgedAt event) (hh : c.OnlyHoldersAt sender x.key event) :
    (c.step event).Kept sender x := by
  have hold := c.extends_step event
  refine ⟨fun i y hy => ?_, fun i hi => ?_⟩
  · rcases List.mem_append.mp hy with hy | hy
    · exact (h.rightful i y hy).mono hold
    · exact (hh.1 _ hy).mono hold
  · rcases hi with ⟨⟨_, o⟩, hp, rfl, hkey⟩ | ⟨p, hp, rfl, hkey⟩
    · rcases List.mem_append.mp hp with hp | hp
      · exact (h.privy _ (.inl ⟨_, hp, rfl, hkey⟩)).mono hold
      · exact h.privy_of_mem_openedIn hs hseals hunique hu hp hkey
    · rcases List.mem_append.mp hp with hp' | hp'
      · exact (h.privy _ (.inr ⟨p, hp', rfl, hkey⟩)).mono hold
      · exact .told ((h.privy _ (hh.2 p hp' hkey)).mono hold) (hkey ▸ hp)

/-- So does a run, as long as the envelope is the only one that its sender made with its key. -/
theorem run (h : c.Kept sender x) (hs : c.Sound) (hseals : OpensSealed)
    (hunique : ∀ z, (sender, z) ∈ (c.run events).posted → z.key = x.key → z = x)
    (hu : c.Unforged events) (hh : c.OnlyHolders sender x.key events) :
    (c.run events).Kept sender x := by
  induction events generalizing c with
  | nil => exact h
  | cons event events ih =>
    have hposted := ((c.extends_step event).trans ((c.step event).extends_run events)).posted
    refine ih (h.step hs hseals (fun z hz => hunique z (hposted hz)) hu.1 hh.1) (hs.step event)
      hunique hu.2 hh.2

end Kept

/-! ## Where the payload of a message comes from -/

variable [DecidableEq ι]

/-- **The payload of a message comes from its sender, or from a device that the content key was
given to.** A messenger reads an envelope that carries a transport of another one. The content key
that it unwraps is that of the envelope, so the payload is the one that the sender encrypted, or was
encrypted under the content key, for the address of the sender, by a device on its own that is privy
to the key. -/
theorem payload_of_decrypted (hseals : OpensSealed) {start : Circle ι} (hstart : start.SetUp)
    {events : List (Event ι)} {sender : ι} {x : Posted}
    (hx : (sender, x) ∈ (start.run events).posted)
    (hflows : (start.scene sender).Flows (requestsTo sender events))
    (hdistinct : (start.scene sender).entropy.BlocksDistinct
      ((start.run events).scene sender).entropy.drawn)
    (hholders : start.OnlyHolders sender x.key events) {reader : ι} {envelope : Envelope}
    (hunforged : start.Unforged
      (events ++ [.asks reader (.decrypt x.envelope.sender envelope)]))
    (hkey : envelope.keyFor ((start.run events).scene reader).messenger.address =
      x.envelope.keyFor ((start.run events).scene reader).messenger.address)
    {message : ClearText} {t : Scene}
    (h : Messenger.decrypt x.envelope.sender envelope ((start.run events).scene reader) =
      (.decrypted message, t)) :
    envelope.payload = x.envelope.payload ∨
      ∃ i y, (i, y) ∈ (start.run events).sealed ∧ y.purpose = .own ∧
        (start.run events).Privy x i ∧ y.key = x.key.bytes ∧
        y.data = x.envelope.sender.toBytes ∧
        envelope.payload = { nonce := y.nonce, ciphertext := y.text } := by
  obtain ⟨hunforged, hread, -⟩ := unforged_append.mp hunforged
  have hsound := (Sound.of_setUp hstart).run events
  have hnodup : ((start.run events).keysOf sender).Nodup := by
    rw [keysOf_run, keysOf, hstart.posted]
    rw [scene_run] at hdistinct
    exact Scene.nodup_authored hflows hdistinct
  have hunique : ∀ z, (sender, z) ∈ (start.run events).posted → z.key = x.key → z = x :=
    fun z hz => eq_of_keysOf_nodup hnodup hz hx
  have hfirst : start.Kept sender x := .of_setUp hstart
  have hkept := hfirst.run (.of_setUp hstart) hseals hunique hunforged hholders
  obtain ⟨hsender, transport, u, s₁, htransport, hu, hp⟩ :=
    Messenger.exists_of_decrypt_eq_decrypted h
  have hukey := hsound.key_of_unwrapFrom hseals hx hread hsender htransport
    (hkey.symm.trans htransport) hu
  obtain ⟨⟨_, hy, htext⟩, hall⟩ :=
    hread _ (Messenger.opening_of_unwrapFrom hsender htransport hu hp)
  obtain ⟨hykey, hnonce, hdata⟩ := hall _ hy htext
  obtain ⟨⟨i, y⟩, hmem, rfl⟩ := List.mem_map.mp hy
  have hsame : envelope.payload = { nonce := y.nonce, ciphertext := y.text } := by
    rw [hnonce, htext]
  rw [hukey] at hykey
  rcases (hkept.rightful i y hmem).under hykey with ⟨rfl, hpurpose⟩ | ⟨hown, hgiven⟩
  · obtain ⟨z, hz, hholds⟩ := hsound.exists_holds hmem hpurpose
    obtain rfl := hunique z hz (congrArg ContentKey.mk (hholds.key.symm.trans hykey))
    exact .inl (hsame.trans hholds.payload.symm)
  · exact .inr ⟨i, y, hmem, hown, hkept.privy i hgiven, hykey, hdata, hsame⟩

/-- Every payload that opens under the content key of an envelope is read in place of the one that
the envelope came with, whoever encrypted it. -/
theorem decrypted_of_payload (hseals : OpensSealed) {start : Circle ι} (hstart : start.SetUp)
    {sender : ι} {x : Posted} (hx : (sender, x) ∈ (start.run events).posted) {reader : ι}
    (hu : (start.run events).UnforgedAt
      (.asks reader (.decrypt x.envelope.sender x.envelope))) {message : ClearText} {t : Scene}
    (h : Messenger.decrypt x.envelope.sender x.envelope ((start.run events).scene reader) =
      (.decrypted message, t)) {payload : Payload} {plaintext : Bytes}
    (hp : x.key.decrypt payload x.envelope.sender = .ok plaintext) :
    Messenger.decrypt x.envelope.sender { x.envelope with payload }
        ((start.run events).scene reader) = (.decrypted { message with plaintext }, t) := by
  have hsound := (Sound.of_setUp hstart).run events
  obtain ⟨hsender, transport, u, s₁, htransport, hunwrap, hgenuine⟩ :=
    Messenger.exists_of_decrypt_eq_decrypted h
  rw [← hsound.key_of_unwrapFrom hseals hx hu hsender htransport htransport hunwrap] at hp
  have hread := Messenger.decrypt_of_unwrapFrom hsender htransport hunwrap hgenuine
  obtain ⟨hmessage, rfl⟩ := Prod.mk.inj (h.symm.trans hread)
  rw [Decryption.decrypted.inj hmessage]
  exact Messenger.decrypt_of_unwrapFrom hsender htransport hunwrap hp

end Run

section Insiders

attribute [local instance] CipherSuite.transparent

/-- Three devices, of which the first one finds the bundles of the other two. -/
def insiders? : Option (Circle (Fin 3)) := do
  let settings := { Settings.standard with minOneTimePreKeys := 0, maxOneTimePreKeys := 0 }
  let carol ← Scene.joining? ⟨"carol", 1⟩ settings .empty .counting
  let mallory ← Scene.joining? ⟨"mallory", 1⟩ settings (carol.run [.publishBundle]).directory
    carol.entropy
  let alice ← Scene.joining? ⟨"alice", 1⟩ settings (mallory.run [.publishBundle]).directory
    mallory.entropy
  return {
    scene := fun | 0 => alice | 1 => carol | 2 => mallory
    sealed := []
    opened := []
    told := []
    posted := [] }

/-- The first device writes to the other two. -/
def announcement : List (Event (Fin 3)) :=
  [.asks 0 (.decideTrust ⟨"carol", 1⟩ .trusted), .asks 0 (.decideTrust ⟨"mallory", 1⟩ .trusted),
    .asks 0 (.encryptFor ["carol", "mallory"] [1, 2, 3] ∅)]

/-- One of the recipients reads the message, and encrypts another one under its content key. -/
def betrayal (x : Posted) : List (Event (Fin 3)) :=
  [.asks 2 (.decrypt x.envelope.sender x.envelope),
    .seals 2 x.key.bytes (.zero 12) x.envelope.sender.toBytes [6, 6, 6]]

/-- The envelope with what the recipient encrypted. -/
def forged (x : Posted) : Envelope :=
  { x.envelope with
    payload :=
      { nonce := .zero 12
        ciphertext := CipherSuite.encrypt x.key.bytes (.zero 12) x.envelope.sender.toBytes
          [6, 6, 6] } }

theorem setUp_of_insiders {start : Circle (Fin 3)} (h : insiders? = some start) : start.SetUp := by
  unfold insiders? at h
  obtain ⟨carol, hcarol, h⟩ := Option.bind_eq_some_iff.mp h
  obtain ⟨mallory, hmallory, h⟩ := Option.bind_eq_some_iff.mp h
  obtain ⟨alice, halice, h⟩ := Option.bind_eq_some_iff.mp h
  cases h
  refine ⟨fun i => ?_, rfl, rfl, rfl, rfl⟩
  match i with
  | 0 => exact provisioned_of_joining halice
  | 1 => exact provisioned_of_joining hcarol
  | 2 => exact provisioned_of_joining hmallory

/-- What happens when a recipient puts a payload of its own into an envelope, and the other one is
given the result. -/
theorem exists_insiders :
    ∃ start x message t, insiders? = some start ∧ start.SetUp ∧
      (0, x) ∈ (start.run (announcement ++ betrayal x)).posted ∧
      (start.scene 0).entropy.BlocksDistinct
        ((start.run (announcement ++ betrayal x)).scene 0).entropy.drawn ∧
      start.OnlyHolders 0 x.key (announcement ++ betrayal x) ∧
      start.Unforged (announcement ++ betrayal x ++
        [.asks 1 (.decrypt x.envelope.sender (forged x))]) ∧
      x.envelope.recipients = [⟨"carol", 1⟩, ⟨"mallory", 1⟩] ∧
      (start.scene 1).messenger.address = ⟨"carol", 1⟩ ∧
      (start.scene 2).messenger.address = ⟨"mallory", 1⟩ ∧
      Messenger.decrypt x.envelope.sender (forged x)
        ((start.run (announcement ++ betrayal x)).scene 1) = (.decrypted message, t) ∧
      message.plaintext = [6, 6, 6] ∧ (forged x).payload ≠ x.envelope.payload := by
  have hinsiders : insiders?.any fun c => (c.run announcement).posted.any fun p =>
      p.1 = 0 ∧
        (c.scene 0).entropy.BlocksDistinct
          ((c.run (announcement ++ betrayal p.2)).scene 0).entropy.drawn ∧
        c.OnlyHolders 0 p.2.key (announcement ++ betrayal p.2) ∧
        c.Unforged (announcement ++ betrayal p.2 ++
          [.asks 1 (.decrypt p.2.envelope.sender (forged p.2))]) ∧
        p.2.envelope.recipients = [⟨"carol", 1⟩, ⟨"mallory", 1⟩] ∧
        (c.scene 1).messenger.address = ⟨"carol", 1⟩ ∧
        (c.scene 2).messenger.address = ⟨"mallory", 1⟩ ∧
        (Messenger.decrypt p.2.envelope.sender (forged p.2)
          ((c.run (announcement ++ betrayal p.2)).scene 1)).1.result.toOption.map (·.plaintext) =
            some [6, 6, 6] ∧
        (forged p.2).payload ≠ p.2.envelope.payload := by
    decide +kernel
  obtain ⟨start, hstart, hp⟩ := (Option.any_eq_true _ _).mp hinsiders
  obtain ⟨⟨i, x⟩, hx, hp⟩ := List.any_eq_true.mp hp
  obtain ⟨rfl, hdistinct, hholders, hunforged, hrecipients, hcarol, hmallory, hread, hne⟩ :=
    of_decide_eq_true hp
  obtain ⟨message, hresult, hplaintext⟩ := Option.map_eq_some_iff.mp hread
  have hposted : (0, x) ∈ (start.run (announcement ++ betrayal x)).posted := by
    rw [run_append]
    exact (extends_run _ (betrayal x)).posted hx
  exact ⟨start, x, message, _, hstart, setUp_of_insiders hstart, hposted, hdistinct, hholders,
    hunforged, hrecipients, hcarol, hmallory,
    Prod.ext (Decryption.eq_of_result_eq_some hresult) rfl, hplaintext, hne⟩

/-- A recipient makes another one read, as coming from the sender, what the sender did not write,
with a cipher that opens only what was encrypted, under keys that only those use who were given
them. -/
theorem forgery_accepted :
    ∃ start x envelope message t, insiders? = some start ∧
      (0, x) ∈ (start.run (announcement ++ betrayal x)).posted ∧
      start.OnlyHolders 0 x.key (announcement ++ betrayal x) ∧
      start.Unforged (announcement ++ betrayal x ++
        [.asks 1 (.decrypt x.envelope.sender envelope)]) ∧
      (start.scene 1).messenger.address ∈ x.envelope.recipients ∧
      (start.scene 2).messenger.address ∈ x.envelope.recipients ∧
      envelope.sender = x.envelope.sender ∧ envelope.keys = x.envelope.keys ∧
      Messenger.decrypt x.envelope.sender envelope
        ((start.run (announcement ++ betrayal x)).scene 1) = (.decrypted message, t) ∧
      message.plaintext = [6, 6, 6] ∧ envelope.payload ≠ x.envelope.payload := by
  obtain ⟨start, x, message, t, hinsiders, -, hx, -, hholders, hunforged, hrecipients, hcarol,
    hmallory, hread, hplaintext, hne⟩ := exists_insiders
  refine ⟨start, x, forged x, message, t, hinsiders, hx, hholders, hunforged, ?_, ?_, rfl, rfl,
    hread, hplaintext, hne⟩
  · rw [hcarol, hrecipients]
    exact List.mem_cons_self
  · rw [hmallory, hrecipients]
    exact List.mem_cons_of_mem _ List.mem_cons_self

/-- The payload that the other recipient is given instead was encrypted, under the content key and
for the address of the sender, by a device that is privy to the key. -/
theorem payload_of_betrayal :
    ∃ start x message t, insiders? = some start ∧
      (0, x) ∈ (start.run (announcement ++ betrayal x)).posted ∧
      Messenger.decrypt x.envelope.sender (forged x)
        ((start.run (announcement ++ betrayal x)).scene 1) = (.decrypted message, t) ∧
      message.plaintext = [6, 6, 6] ∧
      ∃ i y, (i, y) ∈ (start.run (announcement ++ betrayal x)).sealed ∧ y.purpose = .own ∧
        (start.run (announcement ++ betrayal x)).Privy x i ∧ y.key = x.key.bytes ∧
        y.data = x.envelope.sender.toBytes ∧
        (forged x).payload = { nonce := y.nonce, ciphertext := y.text } := by
  obtain ⟨start, x, message, t, hinsiders, hstart, hx, hdistinct, hholders, hunforged, -, -, -,
    hread, hplaintext, hne⟩ := exists_insiders
  have hrequests : requestsTo 0 (announcement ++ betrayal x) =
      [.decideTrust ⟨"carol", 1⟩ .trusted, .decideTrust ⟨"mallory", 1⟩ .trusted,
        .encryptFor ["carol", "mallory"] [1, 2, 3] ∅] := rfl
  have hflows : (start.scene 0).Flows (requestsTo 0 (announcement ++ betrayal x)) := by
    rw [hrequests]
    exact ⟨trivial, trivial, trivial, trivial⟩
  exact ⟨start, x, message, t, hinsiders, hx, hread, hplaintext,
    (payload_of_decrypted CipherSuite.transparent_opensSealed hstart hx hflows hdistinct hholders
      hunforged rfl hread).resolve_left hne⟩

end Insiders

end Circle

end MultiDevice
