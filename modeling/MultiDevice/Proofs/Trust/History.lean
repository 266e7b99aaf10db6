import MultiDevice.Proofs.Messenger.Outcome
import MultiDevice.Proofs.Trust.Record

/-!
# The trust gate over whole runs

Whatever is asked of a messenger, its trust decisions change in two ways only: the user decides, or
a device shows an identity key, in the bundle fetched for a first message or in the session that a
message was read with. So the decisions after a run are those of the events of the run, and a device
is trusted when the last event that counts was a decision to trust it.

## Main definitions

* `Request.events`, `Scene.events`: what bears on the trust in devices during a request and a run

## Main results

* `Request.perform_trust`, `Scene.run_trust`: the table is that of the events
* `Scene.trusted_iff_last_turn`: a device is trusted exactly after a decision that no other turn
  followed, messages go only to devices trusted or allowed at the start of the call, and neither
  requests nor allowances make a device trusted
-/

namespace MultiDevice

/-- A device accepted by the gate is trusted, or undecided and allowed. -/
theorem TrustTable.check_of_mem_accepted {t : TrustTable} {devices allowed : DeviceSet}
    {verdict : TrustVerdict} (h : t.require devices allowed = .ok verdict) {device : DeviceAddress}
    (hd : device ∈ verdict.accepted) :
    t.check device = .trusted ∨ t.check device = .undecided ∧ device ∈ allowed := by
  simp only [require] at h
  split at h
  · next hempty =>
    cases h
    obtain ⟨hm, hs⟩ := DeviceSet.mem_filter.mp hd
    cases hc : t.check device with
    | trusted => exact .inl rfl
    | untrusted => simp [hc] at hs
    | undecided =>
      refine .inr ⟨rfl, Classical.byContradiction fun hn => ?_⟩
      have hr : device ∈ (t.inState .undecided devices).filter fun d => d ∉ allowed := by
        rw [DeviceSet.mem_filter, inState, DeviceSet.mem_filter]
        simp [hm, hc, hn]
      rw [Std.ExtTreeSet.isEmpty_iff.mp hempty] at hr
      exact Std.ExtTreeSet.not_mem_empty hr
  · cases h

/-! ## What devices show during a request -/

section Shown

variable [CipherSuite]

/-- A device whose bundle is fetched shows the identity key of the bundle, if its signature is
right. -/
def shownByBundle (device : DeviceAddress) (s : Scene) : List TrustEvent :=
  if s.messenger.store.containsSession device then []
  else
    match s.directory.fetchBundle device with
    | .error _ => []
    | .ok (bundle, _) =>
      match bundle.verify with
      | .error _ => []
      | .ok () => [.shown device bundle.identity]

/-- The keys shown while a content key is wrapped for several devices. -/
def shownByWrapAll (key : ContentKey) : List DeviceAddress → Scene → List TrustEvent
  | [], _ => []
  | device :: rest, s =>
    shownByBundle device s ++ shownByWrapAll key rest (endState (Messenger.wrapFor key device) s)

/-- The keys shown while a message is encrypted. -/
def shownByEncryption (recipients : List Account) (plaintext : Bytes) (allowed : DeviceSet)
    (s : Scene) : List TrustEvent :=
  match Messenger.prepare recipients plaintext allowed s with
  | .error _ _ => []
  | .ok (verdict, key, _) s => shownByWrapAll key verdict.accepted.toList s

/-- A device whose message is unwrapped shows the identity key of the session that it was unwrapped
with. -/
def shownByReading (sender : DeviceAddress) (envelope : Envelope) (s : Scene) : List TrustEvent :=
  if envelope.sender = sender then
    match envelope.keyFor s.messenger.address with
    | none => []
    | some transport =>
      match Messenger.unwrapFrom sender transport s with
      | .error _ _ => []
      | .ok unwrapped _ => [.shown sender unwrapped.identity]
  else []

/-- What bears on the trust in devices during a request. -/
def Request.events : Request → Scene → List TrustEvent
  | .encryptFor recipients plaintext allowed, s => shownByEncryption recipients plaintext allowed s
  | .decrypt sender envelope, s => shownByReading sender envelope s
  | .decideTrust device state, _ => [.decided device state]
  | _, _ => []

/-- What bears on the trust in devices during a run. -/
def Scene.events : List Request → Scene → List TrustEvent
  | [], _ => []
  | request :: requests, s => request.events s ++ Scene.events requests (request.perform s)

end Shown

/-! ## The table after a request -/

/-- The trust decisions of the messenger of a scene. -/
def Scene.trust (s : Scene) : TrustTable := s.messenger.store.trust

theorem Scene.trust_ignoresUpkeep : IgnoresUpkeep Scene.trust where
  preKeys _ _ _ := rfl
  needsPublishing _ _ := rfl
  pendingRotation _ _ := rfl
  directory _ _ := rfl
  entropy _ _ := rfl

open TrustTable (see)

namespace Messenger

theorem observeIdentity_trust (device : DeviceAddress) (identity : PublicKey) (s : Scene) :
    (endState (observeIdentity device identity) s).trust =
      s.trust.see (.shown device identity) := by
  simp only [endState, observeIdentity, see, Scene.trust]
  cases TrustTable.observe device identity s.messenger.store.trust <;> rfl

variable [CipherSuite]

theorem bundleFor_trust (device : DeviceAddress) (s : Scene) :
    (endState (bundleFor device) s).trust = (shownByBundle device s).foldl see s.trust := by
  rw [shownByBundle]
  by_cases hc : s.messenger.store.containsSession device = true
  · rw [if_pos hc, endState_of_ok (bundleFor_of_session hc)]
    rfl
  · rw [if_neg hc]
    cases hf : s.directory.fetchBundle device with
    | error err =>
      rw [endState_of_error (bundleFor_of_fetch_error hc hf)]
      rfl
    | ok fetched =>
      obtain ⟨bundle, directory⟩ := fetched
      simp only [endState, bundleFor_of_fetch hc hf]
      cases bundle.verify with
      | error err => rfl
      | ok u =>
        -- a bundle that verifies shows its identity, which is noted whether it is accepted or not
        have hobserve := observeIdentity_trust device bundle.identity (s.setDirectory directory)
        cases ho : observeIdentity device bundle.identity (s.setDirectory directory) with
        | ok u s' =>
          rw [endState_of_ok ho] at hobserve
          rw [bind_of_ok (show Action.ofExcept (.ok ()) (s.setDirectory directory) = _ from rfl),
            bind_of_ok ho]
          exact hobserve
        | error err s' =>
          rw [endState_of_error ho] at hobserve
          rw [bind_of_ok (show Action.ofExcept (.ok ()) (s.setDirectory directory) = _ from rfl),
            bind_of_error ho]
          exact hobserve

/-- Wrapping a content key changes no trust decision. -/
theorem wrap_leaves_trust (key : ContentKey) (device : DeviceAddress)
    (bundle : Option PreKeyBundle) : Leaves Scene.trust (wrap key device bundle) := by
  refine Leaves.get.bind fun s => Leaves.changeStore _ (fun _ _ => rfl) fun s a st e e' h => ?_
  obtain ⟨record, session, -, -, -, rfl⟩ := KeyWrap.wrap_eq_ok_iff.mp h
  rfl

theorem wrapFor_trust (key : ContentKey) (device : DeviceAddress) (s : Scene) :
    (endState (wrapFor key device) s).trust = (shownByBundle device s).foldl see s.trust := by
  rw [← bundleFor_trust]
  cases h : bundleFor device s with
  | ok bundle t =>
    rw [wrapFor, endState_bind_of_ok h, endState_of_ok h]
    exact wrap_leaves_trust key device bundle t
  | error err t => rw [wrapFor, endState_bind_of_error h, endState_of_error h]

theorem wrapAll_trust (key : ContentKey) (devices : List DeviceAddress) (s : Scene) :
    (endState (wrapAll key devices) s).trust =
      (shownByWrapAll key devices s).foldl see s.trust := by
  induction devices generalizing s with
  | nil => rfl
  | cons device rest ih =>
    rw [endState_wrapAll_cons, ih, wrapFor_trust, shownByWrapAll, List.foldl_append]

theorem encryptFor_trust (recipients : List Account) (plaintext : Bytes) (allowed : DeviceSet)
    (s : Scene) :
    (endState (encryptFor recipients plaintext allowed) s).trust =
      (shownByEncryption recipients plaintext allowed s).foldl see s.trust := by
  have hleaves : Leaves Scene.trust (prepare recipients plaintext allowed) :=
    prepare_leaves (fun _ _ => rfl) recipients plaintext allowed
  rw [encryptFor_eq, endState_bind_get, shownByEncryption]
  cases h : prepare recipients plaintext allowed s with
  | error err t =>
    rw [endState_bind_of_error h, hleaves.eq_of_error h]
    rfl
  | ok prepared t =>
    obtain ⟨verdict, key, payload⟩ := prepared
    rw [endState_bind_of_ok h, ← hleaves.eq_of_ok h, ← wrapAll_trust]
    cases hw : wrapAll key verdict.accepted.toList t with
    | error err t' => rw [endState_bind_of_error hw, endState_of_error hw]
    | ok wrapped t' => rw [endState_bind_of_ok hw, endState_of_ok hw]; rfl

/-- Unwrapping a content key changes no trust decision. -/
theorem unwrapFrom_trust {sender : DeviceAddress} {transport : KeyTransport} {s t : Scene}
    {u : KeyWrap.Unwrapped} (h : unwrapFrom sender transport s = .ok u t) : t.trust = s.trust := by
  obtain ⟨st, e, hu, rfl⟩ := unwrapFrom_eq_ok_iff.mp h
  obtain ⟨existing, reading, -, -, -, -, -, -, rfl⟩ := KeyWrap.exists_of_unwrap_eq_ok hu
  split
  · exact KeyWrap.withoutConsumed_trust _ _
  · exact KeyWrap.withoutConsumed_trust _ _

theorem read_trust (sender : DeviceAddress) (envelope : Envelope) (s : Scene) :
    (endState (read sender envelope) s).trust =
      (shownByReading sender envelope s).foldl see s.trust := by
  rw [endState_read, shownByReading]
  by_cases hsender : envelope.sender = sender
  · rw [if_pos hsender, if_pos hsender]
    cases envelope.keyFor s.messenger.address with
    | none => rfl
    | some transport =>
      simp only
      cases h : unwrapFrom sender transport s with
      | error err t =>
        obtain ⟨e, -, rfl⟩ := exists_of_unwrapFrom_eq_error h
        rfl
      | ok unwrapped t =>
        rw [observeIdentity_trust, unwrapFrom_trust h]
        rfl
  · rw [if_neg hsender, if_neg hsender]
    rfl

theorem regenerate_leaves_trust : Leaves Scene.trust regenerate := by
  refine Leaves.get.bind fun s => Leaves.bind ?_ fun _ => Leaves.bind ?_ fun _ =>
    publishBundle_leaves Scene.trust_ignoresUpkeep.publishing
  · refine Leaves.changeStore _ (fun _ _ => rfl) fun s a st e e' h => ?_
    obtain ⟨st', e₁, h, hp⟩ := bind_eq_ok_iff.mp h
    cases hp
    exact (Store.of_reprovision_eq_ok h).1
  · exact Leaves.modify fun _ => rfl

end Messenger

/-! ## Runs -/

section Run

variable [CipherSuite]

/-- The trust decisions after a request are those of its events. -/
theorem Request.perform_trust (request : Request) (s : Scene) :
    (request.perform s).trust = (request.events s).foldl see s.trust := by
  have hupkeep := Scene.trust_ignoresUpkeep
  cases request with
  | encryptFor recipients plaintext allowed =>
    exact Messenger.encryptFor_trust recipients plaintext allowed s
  | decrypt sender envelope =>
    rw [Request.perform, Messenger.decrypt_snd]
    exact Messenger.read_trust sender envelope s
  | decideTrust device state => rfl
  | resetSession device => rfl
  | publishBundle => exact Messenger.publishBundle_leaves hupkeep.publishing s
  | publishIfNeeded => exact Messenger.publishIfNeeded_leaves hupkeep.publishing s
  | purgeDevices => exact Messenger.purgeDevices_leaves hupkeep.directory s
  | rotate => exact Messenger.rotate_leaves hupkeep s
  | rotateIfDue => exact Messenger.rotateIfDue_leaves hupkeep s
  | prune => exact Messenger.prune_leaves hupkeep s
  | regenerate => exact Messenger.regenerate_leaves_trust s
  | surroundings directory now entropy => rfl

/-- The trust decisions after a run are those of its events. -/
theorem Scene.run_trust (requests : List Request) (s : Scene) :
    (s.run requests).trust = (Scene.events requests s).foldl see s.trust := by
  -- Induction on the requests: the events of each come before those of the next.
  induction requests generalizing s with
  | nil => rfl
  | cons request requests ih =>
    rw [run_cons, ih, Request.perform_trust, events, List.foldl_append]

theorem decided_notMem_shownByBundle (d device : DeviceAddress) (state : TrustState) (s : Scene) :
    .decided d state ∉ shownByBundle device s := by
  rw [shownByBundle]
  split
  · exact List.not_mem_nil
  · split
    · exact List.not_mem_nil
    · split <;> simp

theorem decided_notMem_shownByWrapAll (d : DeviceAddress) (state : TrustState) (key : ContentKey)
    (devices : List DeviceAddress) (s : Scene) :
    .decided d state ∉ shownByWrapAll key devices s := by
  induction devices generalizing s with
  | nil => exact List.not_mem_nil
  | cons device rest ih =>
    rw [shownByWrapAll, List.mem_append]
    rintro (h | h)
    · exact decided_notMem_shownByBundle d device state s h
    · exact ih _ h

/-- Only the request to decide on a device decides on it. -/
theorem Request.eq_decideTrust_of_mem_events {request : Request} {s : Scene}
    {device : DeviceAddress} {state : TrustState} (h : .decided device state ∈ request.events s) :
    request = .decideTrust device state := by
  cases request with
  | encryptFor recipients plaintext allowed =>
    simp only [events, shownByEncryption] at h
    split at h
    · exact absurd h List.not_mem_nil
    · exact absurd h (decided_notMem_shownByWrapAll _ _ _ _ _)
  | decrypt sender envelope =>
    simp only [events, shownByReading] at h
    split at h
    · split at h
      · exact absurd h List.not_mem_nil
      · split at h <;> simp at h
    · exact absurd h List.not_mem_nil
  | decideTrust d st =>
    obtain ⟨rfl, rfl⟩ : device = d ∧ state = st := by simpa [events] using h
    rfl
  | _ => exact absurd h List.not_mem_nil

/-- A request that does not decide on a device leaves its state, or takes it back to undecided. -/
theorem Request.check_perform {request : Request} {device : DeviceAddress}
    (h : ∀ state, request ≠ .decideTrust device state) (s : Scene) :
    (request.perform s).trust.check device = s.trust.check device ∨
      (request.perform s).trust.check device = .undecided := by
  rw [perform_trust]
  exact TrustTable.check_foldl_see_of_not_decided _ fun state hm =>
    h state (eq_decideTrust_of_mem_events hm)

/-- The keys of an envelope are for devices accepted by the gate at the start of the call. -/
theorem Messenger.check_of_mem_recipients {recipients : List Account} {plaintext : Bytes}
    {allowed : DeviceSet} {s s' : Scene} {encryption : Encryption}
    (h : encryptFor recipients plaintext allowed s = .ok encryption s') {device : DeviceAddress}
    (hd : device ∈ encryption.envelope.recipients) :
    s.trust.check device = .trusted ∨ s.trust.check device = .undecided ∧ device ∈ allowed := by
  obtain ⟨verdict, key, payload, t, keys, failures, hp, hw, rfl⟩ := exists_of_encryptFor_eq_ok h
  obtain ⟨devices, -, hr⟩ := exists_of_prepare_eq_ok hp
  have hmem := (recipients_sublist_of_wrapAll hw).subset hd
  exact TrustTable.check_of_mem_accepted hr (Std.ExtTreeSet.mem_toList.mp hmem)

/-- **The trust gate over whole runs.** Whatever a messenger was asked to do since it was set up, a
device is trusted exactly when the last turn, among the decisions on it and the changes of the key
it showed, was the decision to trust it. An envelope carries keys only for devices that were trusted
at the start of the call, or undecided and allowed. No request but the decision makes a device
trusted, and what an encryption leaves in the records are the keys that devices showed, whatever it
was allowed. -/
theorem Scene.trusted_iff_last_turn {start : Scene} (hstart : Provisioned start)
    (requests : List Request) :
    (∀ device, (start.run requests).messenger.trustState device = .trusted ↔
      (turns device none (Scene.events requests start)).getLast? = some (.decided .trusted)) ∧
    (∀ recipients plaintext allowed encryption s',
      Messenger.encryptFor recipients plaintext allowed (start.run requests) =
        .ok encryption s' →
      ∀ device ∈ encryption.envelope.recipients,
        (start.run requests).messenger.trustState device = .trusted ∨
        (start.run requests).messenger.trustState device = .undecided ∧ device ∈ allowed) ∧
    (∀ (request : Request) device, (∀ state, request ≠ .decideTrust device state) →
      (request.perform (start.run requests)).messenger.trustState device = .trusted →
      (start.run requests).messenger.trustState device = .trusted) ∧
    (∀ recipients plaintext allowed,
      ((Request.encryptFor recipients plaintext allowed).perform (start.run requests)).trust =
        (shownByEncryption recipients plaintext allowed (start.run requests)).foldl see
          (start.run requests).trust ∧
      ∀ device, (start.run requests).messenger.trustState device = .undecided →
        ((Request.encryptFor recipients plaintext allowed).perform
          (start.run requests)).messenger.trustState device = .undecided) := by
  refine ⟨fun device => ?_, fun recipients plaintext allowed encryption s' h device hd => ?_,
    fun request device hr ht => ?_, fun recipients plaintext allowed => ⟨?_, fun device hu => ?_⟩⟩
  · have htrust : start.trust = ∅ := hstart.store.1
    have hcheck : (start.run requests).messenger.trustState device =
        ((turns device none (Scene.events requests start)).getLast?.map TrustTurn.state).getD
          .undecided := by
      change (start.run requests).trust.check device = _
      rw [run_trust, TrustTable.check_foldl_see, htrust]
      rfl
    rw [hcheck]
    cases (turns device none (Scene.events requests start)).getLast? with
    | none => simp
    | some turn => cases turn <;> simp [TrustTurn.state]
  · exact Messenger.check_of_mem_recipients h hd
  · rcases Request.check_perform hr (start.run requests) with h | h
    · exact h.symm.trans ht
    · cases h.symm.trans ht
  · exact Request.perform_trust (.encryptFor recipients plaintext allowed) _
  · have hr : ∀ state,
        Request.encryptFor recipients plaintext allowed ≠ .decideTrust device state := by
      intro state h
      cases h
    rcases Request.check_perform hr (start.run requests) with h | h
    · exact h.trans hu
    · exact h

end Run

section Reconsidered

attribute [local instance] CipherSuite.transparent

/-- A device is trusted when the user thinks better of it. -/
theorem Scene.trusted_of_reconsidered :
    ∃ start, newcomer? ⟨"alice", 1⟩ = some start ∧
      (start.run [.decideTrust ⟨"bob", 1⟩ .untrusted, .rotate,
        .decideTrust ⟨"bob", 1⟩ .trusted]).messenger.trustState ⟨"bob", 1⟩ = .trusted := by
  obtain ⟨start, hstart⟩ : ∃ start, newcomer? ⟨"alice", 1⟩ = some start := ⟨_, rfl⟩
  refine ⟨start, hstart, ?_⟩
  have hturns := (trusted_iff_last_turn (provisioned_of_newcomer hstart)
    [.decideTrust ⟨"bob", 1⟩ .untrusted, .rotate, .decideTrust ⟨"bob", 1⟩ .trusted]).1 ⟨"bob", 1⟩
  exact hturns.mpr (by rfl)

end Reconsidered

end MultiDevice
