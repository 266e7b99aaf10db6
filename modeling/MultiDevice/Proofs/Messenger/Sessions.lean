import MultiDevice.Proofs.KeyWrap.Records

/-!
# Properties of the sessions that a device keeps

Wrapping and unwrapping content keys change what is stored for devices, starting afresh and
forgetting a device take something away, and no other request touches it. A property that wrapping
keeps is therefore a property after every request, if it is known what reading makes of it.

## Main definitions

* `SessionProperty`: a property of what a store keeps, and what reading a message makes of it

## Main results

* `SessionProperty.perform`: the property after a request that reads no message
* `SessionProperty.perform_decrypt`: the property after a message was read
-/

namespace MultiDevice

variable [CipherSuite]

/-- A property of the sessions that a store keeps for an identity. Wrapping keeps it, and unwrapping
turns it into another one. -/
structure SessionProperty (p q : Store → Prop) : Prop where
  congr : ∀ {s s' : Store}, s'.sessions = s.sessions → s'.identity = s.identity → p s → p s'
  congr_read : ∀ {s s' : Store}, s'.sessions = s.sessions → s'.identity = s.identity → q s → q s'
  relax : ∀ {s : Store}, p s → q s
  empty : ∀ {s : Store}, s.sessions = ∅ → p s
  forget : ∀ {s : Store} (device : DeviceAddress), p s → p (s.deleteSession device)
  wrap : ∀ {c : KeyWrap.Settings} {s s' : Store} {device : DeviceAddress}
    {bundle : Option PreKeyBundle} {key : ContentKey} {t : KeyTransport} {e e' : Entropy},
    p s → KeyWrap.wrap c s device bundle key e = .ok (t, s') e' → p s'
  unwrap : ∀ {c : KeyWrap.Settings} {s s' : Store} {device : DeviceAddress} {t : KeyTransport}
    {u : KeyWrap.Unwrapped} {e e' : Entropy},
    p s → KeyWrap.unwrap c s device t e = .ok (u, s') e' → q s'

namespace SessionProperty

variable {p q : Store → Prop} {s : Scene}

theorem of_leaves (h : SessionProperty p q) {α : Type} {x : Action α}
    (hx : Leaves (fun s : Scene => (s.sessions, s.messenger.store.identity)) x)
    (hs : p s.messenger.store) : p (endState x s).messenger.store := by
  obtain ⟨hsessions, hidentity⟩ := Prod.mk.inj (hx s)
  exact h.congr hsessions hidentity hs

theorem wrapFor (h : SessionProperty p q) (key : ContentKey) (device : DeviceAddress) (s : Scene)
    (hs : p s.messenger.store) : p (endState (Messenger.wrapFor key device) s).messenger.store := by
  have hfetched : p (endState (Messenger.bundleFor device) s).messenger.store :=
    h.of_leaves (Messenger.bundleFor_leaves (fun _ _ => rfl) (fun _ _ => rfl) device) hs
  refine endState_bind_induction (p := fun t : Scene => p t.messenger.store) hfetched ?_
  intro bundle t _ ht
  rw [Messenger.wrap, endState_bind_get]
  cases hw : KeyWrap.wrap t.messenger.settings.keyWrap t.messenger.store device bundle key
      t.entropy with
  | ok a e =>
    rw [endState_of_ok (Action.changeStore_of_ok hw)]
    exact h.wrap ht hw
  | error err e =>
    rw [endState_of_error (Action.changeStore_of_error hw)]
    exact ht

theorem unwrapFrom (h : SessionProperty p q) {sender : DeviceAddress} {transport : KeyTransport}
    {u : KeyWrap.Unwrapped} {t : Scene} (hs : p s.messenger.store)
    (hu : Messenger.unwrapFrom sender transport s = .ok u t) : q t.messenger.store := by
  obtain ⟨st, e, hk, rfl⟩ := Messenger.unwrapFrom_eq_ok_iff.mp hu
  split
  · exact h.unwrap hs hk
  · exact h.unwrap hs hk

theorem read (h : SessionProperty p q) (sender : DeviceAddress) (envelope : Envelope)
    (hs : p s.messenger.store) :
    q (endState (Messenger.read sender envelope) s).messenger.store := by
  rw [Messenger.endState_read]
  split
  · split
    · exact h.relax hs
    · split
      · next hu =>
        obtain ⟨e, -, rfl⟩ := Messenger.exists_of_unwrapFrom_eq_error hu
        exact h.relax hs
      · next unwrapped t hu =>
        have hnoted : Leaves (fun s : Scene => (s.sessions, s.messenger.store.identity))
            (Messenger.observeIdentity sender unwrapped.identity) :=
          Messenger.observeIdentity_leaves (fun _ _ => rfl) _ _
        obtain ⟨hsessions, hidentity⟩ := Prod.mk.inj (hnoted t)
        exact h.congr_read hsessions hidentity (h.unwrapFrom hs hu)
  · exact h.relax hs

/-- Reading a message makes the one property the other. -/
theorem perform_decrypt (h : SessionProperty p q) (sender : DeviceAddress) (envelope : Envelope)
    (hs : p s.messenger.store) :
    q (Request.perform (.decrypt sender envelope) s).messenger.store := by
  rw [Request.perform, Messenger.decrypt_snd]
  exact h.read sender envelope hs

/-- A request that reads no message keeps the property. -/
theorem perform (h : SessionProperty p q) {request : Request}
    (hrequest : ∀ sender envelope, request ≠ .decrypt sender envelope)
    (hs : p s.messenger.store) : p (request.perform s).messenger.store := by
  have hv : IgnoresUpkeep fun s : Scene => (s.sessions, s.messenger.store.identity) :=
    ⟨fun _ _ _ => rfl, fun _ _ => rfl, fun _ _ => rfl, fun _ _ => rfl, fun _ _ => rfl⟩
  cases request with
  | encryptFor recipients plaintext allowed =>
    exact Messenger.encryptFor_preserves (p := fun t => p t.messenger.store)
      (fun _ _ ht => ht) h.wrapFor recipients plaintext allowed hs
  | decrypt sender envelope => exact absurd rfl (hrequest sender envelope)
  | decideTrust device state => exact h.congr (s := s.messenger.store) rfl rfl hs
  | resetSession device => exact h.forget device hs
  | publishBundle => exact h.of_leaves (Messenger.publishBundle_leaves hv.publishing) hs
  | publishIfNeeded => exact h.of_leaves (Messenger.publishIfNeeded_leaves hv.publishing) hs
  | purgeDevices => exact h.of_leaves (Messenger.purgeDevices_leaves hv.directory) hs
  | rotate => exact h.of_leaves (Messenger.rotate_leaves hv) hs
  | rotateIfDue => exact h.of_leaves (Messenger.rotateIfDue_leaves hv) hs
  | prune => exact h.of_leaves (Messenger.prune_leaves hv) hs
  | regenerate =>
    rcases Messenger.store_of_regenerate s with hstore | hnone
    · exact h.congr (congrArg Store.sessions hstore) (congrArg Store.identity hstore) hs
    · exact h.empty hnone
  | surroundings directory now entropy => exact hs

/-- A property that reading keeps too is kept by every request. -/
theorem perform_of_self (h : SessionProperty p p) (request : Request) (s : Scene)
    (hs : p s.messenger.store) : p (request.perform s).messenger.store := by
  by_cases hread : ∃ sender envelope, request = .decrypt sender envelope
  · obtain ⟨sender, envelope, rfl⟩ := hread
    exact h.perform_decrypt sender envelope hs
  · exact h.perform (fun sender envelope heq => hread ⟨sender, envelope, heq⟩) hs

end SessionProperty

end MultiDevice
