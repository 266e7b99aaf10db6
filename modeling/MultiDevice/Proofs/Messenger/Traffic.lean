import MultiDevice.Proofs.KeyWrap.Consumption
import MultiDevice.Proofs.Messenger.Chores
import MultiDevice.Proofs.Messenger.Tended

/-!
# What traffic does to pre-keys and bundles

Requests that are no upkeep are traffic: messages are encrypted and read, trust is decided, sessions
are forgotten, and the world goes on. Traffic leaves the pre-keys alone, but for a one-time pre-key
that a message read used up, and then the bundle has to be published again. The others only take
one-time pre-keys out of the bundle published.

## Main definitions

* `Scene.Undisturbed`, `Scene.UndisturbedBy`: nobody else publishes for a device
* `Traffic`: what traffic makes of a scene

## Main results

* `Request.perform_traffic`: every request that is no upkeep is traffic
-/

namespace MultiDevice

/-- What traffic makes of a scene. -/
structure Traffic (s t : Scene) : Prop where
  address : t.messenger.address = s.messenger.address
  settings : t.messenger.settings = s.messenger.settings
  identity : t.messenger.store.identity = s.messenger.store.identity
  signedPreKeys : t.messenger.store.signedPreKeys = s.messenger.store.signedPreKeys
  pendingRotation : t.messenger.pendingRotation = s.messenger.pendingRotation
  directory : s.directory.Serves s.messenger.address t.directory
  pool : (t.messenger.store.oneTimePreKeys = s.messenger.store.oneTimePreKeys ∧
      t.messenger.needsPublishing = s.messenger.needsPublishing) ∨
    ∃ id ∈ s.messenger.store.oneTimePreKeys.keys,
      t.messenger.store.oneTimePreKeys = (s.messenger.store.oneTimePreKeys.remove id).2 ∧
        t.messenger.needsPublishing = true

/-- What sending makes of a scene: it leaves the pre-keys alone altogether. -/
def Sending (s t : Scene) : Prop :=
  Traffic s t ∧ t.messenger.store.oneTimePreKeys = s.messenger.store.oneTimePreKeys ∧
    t.messenger.needsPublishing = s.messenger.needsPublishing

/-- Sessions, trust decisions and randomness may change. -/
theorem Sending.stored (s : Scene) (sessions : Std.ExtTreeMap DeviceAddress Bytes)
    (trust : TrustTable) (e : Entropy) :
    Sending s { s.setStore { s.messenger.store with sessions, trust } with entropy := e } :=
  ⟨⟨rfl, rfl, rfl, rfl, rfl, .refl _ _, .inl ⟨rfl, rfl⟩⟩, rfl, rfl⟩

theorem Sending.refl (s : Scene) : Sending s s :=
  .stored s s.messenger.store.sessions s.messenger.store.trust s.entropy

theorem Sending.trans {s t u : Scene} (h : Sending s t) (h' : Sending t u) : Sending s u := by
  obtain ⟨ht, hpool, hneeds⟩ := h
  obtain ⟨hu, hpool', hneeds'⟩ := h'
  refine ⟨⟨hu.address.trans ht.address, hu.settings.trans ht.settings,
    hu.identity.trans ht.identity, hu.signedPreKeys.trans ht.signedPreKeys,
    hu.pendingRotation.trans ht.pendingRotation, ?_,
    .inl ⟨hpool'.trans hpool, hneeds'.trans hneeds⟩⟩, hpool'.trans hpool, hneeds'.trans hneeds⟩
  exact ht.directory.trans (ht.address ▸ hu.directory)

namespace Messenger

theorem sending_observeIdentity (device : DeviceAddress) (identity : PublicKey) (s : Scene) :
    Sending s (endState (observeIdentity device identity) s) := by
  unfold endState observeIdentity
  cases TrustTable.observe device identity s.messenger.store.trust with
  | ok _ trust => exact .stored s _ trust _
  | error _ trust => exact .stored s _ trust _

variable [CipherSuite]

theorem sending_bundleFor (device : DeviceAddress) (s : Scene) :
    Sending s (endState (bundleFor device) s) := by
  by_cases hsession : s.messenger.store.containsSession device = true
  · rw [endState_of_ok (bundleFor_of_session hsession)]
    exact .refl s
  · cases hf : s.directory.fetchBundle device with
    | error err =>
      rw [endState_of_error (bundleFor_of_fetch_error hsession hf)]
      exact .refl s
    | ok fetched =>
      obtain ⟨b, directory⟩ := fetched
      have hfetched : Sending s (s.setDirectory directory) :=
        ⟨⟨rfl, rfl, rfl, rfl, rfl, Directory.serves_of_fetchBundle hf, .inl ⟨rfl, rfl⟩⟩, rfl, rfl⟩
      rw [endState, bundleFor_of_fetch hsession hf]
      refine endState_bind_induction (p := Sending s) ?_ fun _ t _ ht => ?_
      · have hverified : Leaves (Sending s) (Action.ofExcept b.verify) := .ofExcept _
        exact (hverified _).mpr hfetched
      · refine endState_bind_induction (p := Sending s) ?_ fun _ u _ hu => hu
        exact ht.trans (sending_observeIdentity device b.identity t)

theorem sending_wrapFor (key : ContentKey) (device : DeviceAddress) (s : Scene) :
    Sending s (endState (wrapFor key device) s) := by
  refine endState_bind_induction (p := Sending s) (sending_bundleFor device s)
    fun bundle t _ ht => ht.trans ?_
  rw [wrap, endState_bind_get]
  cases hw : KeyWrap.wrap t.messenger.settings.keyWrap t.messenger.store device bundle key
      t.entropy with
  | error err e =>
    rw [endState_of_error (Action.changeStore_of_error hw)]
    exact .stored t _ _ e
  | ok a e =>
    obtain ⟨transport, st⟩ := a
    rw [endState_of_ok (Action.changeStore_of_ok hw)]
    obtain ⟨record, session, -, -, -, rfl⟩ := KeyWrap.wrap_eq_ok_iff.mp hw
    exact .stored t _ _ e

theorem sending_encryptFor (recipients : List Account) (plaintext : Bytes) (allowed : DeviceSet)
    (s : Scene) : Sending s (endState (encryptFor recipients plaintext allowed) s) :=
  encryptFor_preserves (p := Sending s) (fun t e ht => ht.trans (.stored t _ _ e))
    (fun key device t ht => ht.trans (sending_wrapFor key device t)) recipients plaintext allowed
    (.refl s)

/-- What an unwrapping used up is no longer in the pool, and the bundle has to be published. -/
theorem traffic_unwrapFrom {sender : DeviceAddress} {transport : KeyTransport} {s t : Scene}
    {u : KeyWrap.Unwrapped} (h : unwrapFrom sender transport s = .ok u t) : Traffic s t := by
  obtain ⟨st, e, hunwrap, rfl⟩ := unwrapFrom_eq_ok_iff.mp h
  have hpool := KeyWrap.unwrap_oneTimePreKeys hunwrap
  obtain ⟨existing, reading, -, -, -, -, -, -, rfl⟩ := KeyWrap.exists_of_unwrap_eq_ok hunwrap
  rcases hpool with ⟨hnone, -⟩ | ⟨id, hsome, hmem, heq⟩
  · rw [hnone]
    exact ⟨rfl, rfl, rfl, rfl, rfl, .refl _ _, .inl ⟨rfl, rfl⟩⟩
  · rw [hsome] at heq ⊢
    exact ⟨rfl, rfl, rfl, rfl, rfl, .refl _ _, .inr ⟨id, hmem, heq, rfl⟩⟩

omit [CipherSuite] in
theorem traffic_noted {s t : Scene} (h : Traffic s t) (device : DeviceAddress)
    (identity : PublicKey) : Traffic s (endState (observeIdentity device identity) t) := by
  obtain ⟨hu, hpool, hneeds⟩ := sending_observeIdentity device identity t
  refine ⟨hu.address.trans h.address, hu.settings.trans h.settings, hu.identity.trans h.identity,
    hu.signedPreKeys.trans h.signedPreKeys, hu.pendingRotation.trans h.pendingRotation,
    h.directory.trans (h.address ▸ hu.directory), ?_⟩
  rw [hpool, hneeds]
  exact h.pool

theorem traffic_read (sender : DeviceAddress) (envelope : Envelope) (s : Scene) :
    Traffic s (endState (read sender envelope) s) := by
  have hsame : Traffic s s := (Sending.refl s).1
  rw [endState_read]
  split
  · split
    · exact hsame
    · next transport hkey =>
      cases hu : unwrapFrom sender transport s with
      | error err t =>
        obtain ⟨e, -, rfl⟩ := exists_of_unwrapFrom_eq_error hu
        exact (Sending.stored s _ _ e).1
      | ok u t => exact traffic_noted (traffic_unwrapFrom hu) sender u.identity
  · exact hsame

end Messenger

/-- The world around a device publishes no bundle for it and takes none away. -/
def Scene.Undisturbed (s : Scene) : Request → Prop
  | .surroundings directory _ _ => s.directory.Serves s.messenger.address directory
  | _ => True

/-- All along, the world around a device publishes no bundle for it and takes none away. -/
def Scene.UndisturbedBy [CipherSuite] : List Request → Scene → Prop
  | [], _ => True
  | request :: rest, s => s.Undisturbed request ∧ (request.perform s).UndisturbedBy rest

/-- Every request that is no upkeep is traffic. -/
theorem Request.perform_traffic [CipherSuite] {request : Request} {s : Scene}
    (h : ¬ request.IsUpkeep) (hworld : s.Undisturbed request) : Traffic s (request.perform s) := by
  cases request with
  | encryptFor recipients plaintext allowed =>
    exact (Messenger.sending_encryptFor recipients plaintext allowed s).1
  | decrypt sender envelope =>
    rw [perform, Messenger.decrypt_snd]
    exact Messenger.traffic_read sender envelope s
  | decideTrust device state => exact (Sending.stored s _ _ _).1
  | resetSession device => exact (Sending.stored s _ _ _).1
  | surroundings directory now entropy =>
    exact ⟨rfl, rfl, rfl, rfl, rfl, hworld, .inl ⟨rfl, rfl⟩⟩
  | _ => exact (h trivial).elim

/-- The address of a device stays, whatever is asked of it. -/
theorem Request.perform_address [CipherSuite] (request : Request) {s : Scene} (hfiled : s.Filed) :
    (request.perform s).messenger.address = s.messenger.address := by
  by_cases hup : request.IsUpkeep
  · obtain ⟨t, hbase, hchores⟩ := request.perform_chores hup hfiled
    have haddress : t.messenger.address = s.messenger.address := by
      rcases hbase with rfl | ⟨st, e, -, rfl⟩
      · rfl
      · rfl
    refine hchores.induction (p := fun u => u.messenger.address = s.messenger.address) ?_ haddress
    rintro u v hchore hu
    cases hchore <;> exact hu
  · cases request with
    | surroundings directory now entropy => rfl
    | _ => exact (perform_traffic hup trivial).address

end MultiDevice
