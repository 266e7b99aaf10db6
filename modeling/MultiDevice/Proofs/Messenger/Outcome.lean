import MultiDevice.Proofs.AssociatedData
import MultiDevice.Proofs.KeyWrap.Outcome
import MultiDevice.Proofs.Messenger.Request

/-!
# What encrypting and reading do, step by step

An encryption prepares and then wraps the content key for one device after the other. For a device
without a session it first fetches a bundle and notes the identity shown there. A reading unwraps
the content key and notes the identity of the session that it was unwrapped with.

## Main definitions

* `IgnoresTraffic`: parts of a scene that depend neither on what publishing changes nor on sessions
  and trust decisions

## Main results

* `encryptFor_leaves`, `read_leaves`: what encrypting and reading leave alone
* `bundleFor_of_session`, `bundleFor_of_fetch`: where a bundle comes from
* `exists_of_encryptFor_eq_ok`: the two stages of an encryption that succeeds
* `recipients_sublist_of_wrapAll`: the devices that keys are wrapped for
-/

namespace MultiDevice

/-- A device belongs to the filtered set when it belongs to the set and passes the test. -/
theorem DeviceSet.mem_filter {devices : DeviceSet} {test : DeviceAddress → Bool}
    {device : DeviceAddress} : device ∈ devices.filter test ↔ device ∈ devices ∧ test device := by
  rw [← Std.ExtTreeSet.mem_toList, Std.ExtTreeSet.toList_filter, List.mem_filter,
    Std.ExtTreeSet.mem_toList]

/-- The devices of a set come only once in its list. -/
theorem DeviceSet.nodup_toList (devices : DeviceSet) : devices.toList.Nodup := by
  refine Std.ExtTreeSet.distinct_toList.imp ?_
  rintro a _ hne rfl
  exact hne Std.ReflCmp.compare_self

/-- The gate accepts only devices that it was asked about. -/
theorem TrustTable.mem_of_mem_accepted {t : TrustTable} {devices allowed : DeviceSet}
    {verdict : TrustVerdict} (h : t.require devices allowed = .ok verdict) {device : DeviceAddress}
    (hd : device ∈ verdict.accepted) : device ∈ devices := by
  simp only [require] at h
  split at h
  · cases h
    exact (DeviceSet.mem_filter.mp hd).1
  · cases h

/-- A device that starts afresh keeps its trust decisions and no sessions. -/
theorem Store.of_reprovision_eq_ok {s s' : Store} {count : Nat} {now : Time} {e e' : Entropy}
    (h : s.reprovision count now e = .ok s' e') : s'.trust = s.trust ∧ s'.sessions = ∅ := by
  obtain ⟨ring, e₁, pool, e₂, identity, -, -, -, rfl⟩ := Store.reprovision_eq_ok_iff.mp h
  exact ⟨rfl, rfl⟩

theorem Decryption.eq_of_result_eq_some {d : Decryption} {message : ClearText}
    (h : d.result.toOption = some message) : d = .decrypted message := by
  cases d with
  | decrypted message' =>
    cases h
    rfl
  | notForMe device => cases h
  | failed err => cases h

/-- The part `view` of a scene depends neither on what publishing changes nor on sessions and trust
decisions. -/
structure IgnoresTraffic {γ : Type} (view : Scene → γ) : Prop extends IgnoresPublishing view where
  stored : ∀ s sessions trust,
    view (s.setStore { s.messenger.store with sessions, trust }) = view s

namespace Messenger

/-- Noting an identity changes trust decisions only. -/
theorem observeIdentity_leaves {γ : Type} {view : Scene → γ}
    (hv : ∀ s trust, view (s.setStore { s.messenger.store with trust }) = view s)
    (device : DeviceAddress) (identity : PublicKey) :
    Leaves view (observeIdentity device identity) := by
  intro s
  unfold endState observeIdentity
  cases TrustTable.observe device identity s.messenger.store.trust with
  | ok _ trust => exact hv s trust
  | error _ trust => exact hv s trust

theorem noteIdentity_eq_ok (device : DeviceAddress) (identity : PublicKey) (s : Scene) :
    noteIdentity device identity s = .ok () (endState (observeIdentity device identity) s) := by
  simp only [noteIdentity, endState, observeIdentity, TrustTable.observe]
  cases (s.messenger.store.trust.record device).identity with
  | none => rfl
  | some known => by_cases hp : known.SamePoint identity <;> simp [hp]

variable [CipherSuite]

theorem bundleFor_of_session {device : DeviceAddress} {s : Scene}
    (h : s.messenger.store.containsSession device = true) : bundleFor device s = .ok none s := by
  rw [bundleFor, bind_get, if_pos h]
  rfl

theorem bundleFor_of_fetch_error {device : DeviceAddress} {s : Scene} {err : Error}
    (h : ¬ s.messenger.store.containsSession device = true)
    (hf : s.directory.fetchBundle device = .error err) : bundleFor device s = .error err s := by
  rw [bundleFor, bind_get, if_neg h, bind_get, hf]
  rfl

/-- Without a session a bundle is fetched, verified, and its identity noted. -/
theorem bundleFor_of_fetch {device : DeviceAddress} {s : Scene} {bundle : PreKeyBundle}
    {directory : Directory} (h : ¬ s.messenger.store.containsSession device = true)
    (hf : s.directory.fetchBundle device = .ok (bundle, directory)) :
    bundleFor device s =
      ((do
        Action.ofExcept bundle.verify
        observeIdentity device bundle.identity
        return some bundle) : Action _) (s.setDirectory directory) := by
  rw [bundleFor, bind_get, if_neg h, bind_get, hf]
  rfl

/-- Fetching a bundle changes the directory and trust decisions only. -/
theorem bundleFor_leaves {γ : Type} {view : Scene → γ}
    (hd : ∀ s directory, view (s.setDirectory directory) = view s)
    (ht : ∀ s trust, view (s.setStore { s.messenger.store with trust }) = view s)
    (device : DeviceAddress) : Leaves view (bundleFor device) := by
  refine Leaves.get.bind fun s => Leaves.ite (Leaves.pure _) ?_
  refine Leaves.get.bind fun s => (Leaves.ofExcept _).bind fun fetched => ?_
  refine Leaves.bind (Leaves.modify fun s => hd s _) fun _ => (Leaves.ofExcept _).bind fun _ => ?_
  exact (observeIdentity_leaves ht _ _).bind fun _ => Leaves.pure _

theorem wrapFor_leaves {γ : Type} {view : Scene → γ} (hv : IgnoresTraffic view) (key : ContentKey)
    (device : DeviceAddress) : Leaves view (wrapFor key device) := by
  have hbundle := bundleFor_leaves hv.directory (fun s trust => hv.stored s _ trust) device
  refine hbundle.bind fun bundle => ?_
  refine Leaves.get.bind fun s => Leaves.changeStore _ hv.entropy fun s a st e e' hw => ?_
  obtain ⟨record, session, -, -, -, rfl⟩ := KeyWrap.wrap_eq_ok_iff.mp hw
  exact hv.stored s _ _

theorem wrapAll_cons_of_ok {key : ContentKey} {device : DeviceAddress} {s t : Scene}
    {transport : KeyTransport} (rest : List DeviceAddress)
    (h : wrapFor key device s = .ok transport t) :
    wrapAll key (device :: rest) s =
      ((fun p => (({ recipient := device, transport } : RecipientKey) :: p.1, p.2)) <$>
        wrapAll key rest) t := by
  simp only [wrapAll, h]

theorem wrapAll_cons_of_error {key : ContentKey} {device : DeviceAddress} {s t : Scene}
    {error : Error} (rest : List DeviceAddress) (h : wrapFor key device s = .error error t) :
    wrapAll key (device :: rest) s =
      ((fun p => (p.1, ({ device, error } : DeviceFailure) :: p.2)) <$> wrapAll key rest) t := by
  simp only [wrapAll, h]

/-- Wrapping for several devices ends where wrapping for the first and then for the others does. -/
theorem endState_wrapAll_cons (key : ContentKey) (device : DeviceAddress)
    (rest : List DeviceAddress) (s : Scene) :
    endState (wrapAll key (device :: rest)) s =
      endState (wrapAll key rest) (endState (wrapFor key device) s) := by
  cases h : wrapFor key device s with
  | ok transport t =>
    rw [endState_of_ok h, endState, wrapAll_cons_of_ok rest h]
    exact endState_map _ _ t
  | error err t =>
    rw [endState_of_error h, endState, wrapAll_cons_of_error rest h]
    exact endState_map _ _ t

/-- The keys wrapped are for some of the devices, in their order. -/
theorem recipients_sublist_of_wrapAll {key : ContentKey} {devices : List DeviceAddress}
    {s s' : Scene} {keys : List RecipientKey} {failures : List DeviceFailure}
    (h : wrapAll key devices s = .ok (keys, failures) s') :
    (keys.map (·.recipient)).Sublist devices := by
  induction devices generalizing s keys failures with
  | nil => cases h; exact List.Sublist.slnil
  | cons device rest ih =>
    cases hw : wrapFor key device s with
    | ok transport t =>
      rw [wrapAll_cons_of_ok rest hw] at h
      obtain ⟨⟨keys', failures'⟩, hr, hk⟩ := map_eq_ok_iff.mp h
      cases hk
      exact (ih hr).cons_cons device
    | error err t =>
      rw [wrapAll_cons_of_error rest hw] at h
      obtain ⟨⟨keys', failures'⟩, hr, hk⟩ := map_eq_ok_iff.mp h
      cases hk
      exact (ih hr).cons device

/-- Nothing is wrapped, and nothing changes, when every device is refused at once. -/
theorem wrapAll_of_refused {key : ContentKey} {devices : List DeviceAddress} {s : Scene}
    (h : ∀ d ∈ devices, ∃ err, wrapFor key d s = .error err s) :
    ∃ failures, wrapAll key devices s = .ok ([], failures) s := by
  induction devices with
  | nil => exact ⟨[], rfl⟩
  | cons d rest ih =>
    obtain ⟨err, hd⟩ := h d List.mem_cons_self
    obtain ⟨failures, hrest⟩ := ih fun d hd => h d (List.mem_cons_of_mem _ hd)
    refine ⟨{ device := d, error := err } :: failures, ?_⟩
    rw [wrapAll_cons_of_error rest hd]
    exact map_of_ok hrest

/-- When all devices but one are refused at once, that one decides what is wrapped. -/
theorem exists_of_wrapAll_eq_ok {key : ContentKey} {device : DeviceAddress}
    {devices : List DeviceAddress} {s s' : Scene} {keys : List RecipientKey}
    {failures : List DeviceFailure} (hn : devices.Nodup)
    (hs : ∀ d ∈ devices, d ≠ device → ∃ err, wrapFor key d s = .error err s)
    (ht : ∀ d ∈ devices, d ≠ device →
      ∃ err, wrapFor key d (endState (wrapFor key device) s) =
        .error err (endState (wrapFor key device) s))
    (h : wrapAll key devices s = .ok (keys, failures) s') :
    (keys = [] ∧ (s' = s ∨ ∃ err, wrapFor key device s = .error err s')) ∨
      ∃ transport, wrapFor key device s = .ok transport s' ∧
        keys = [{ recipient := device, transport }] := by
  induction devices generalizing keys failures with
  | nil =>
    cases h
    exact .inl ⟨rfl, .inl rfl⟩
  | cons d rest ih =>
    have hs' := fun d hd => hs d (List.mem_cons_of_mem _ hd)
    have ht' := fun d hd => ht d (List.mem_cons_of_mem _ hd)
    obtain ⟨hd, hn⟩ := List.nodup_cons.mp hn
    by_cases heq : d = device
    · subst heq
      have hne : ∀ d' ∈ rest, d' ≠ d := fun d' hd' h => hd (h ▸ hd')
      have hrest := wrapAll_of_refused fun d' hd' => ht' d' hd' (hne d' hd')
      cases hw : wrapFor key d s with
      | ok transport t =>
        rw [endState_of_ok hw] at hrest
        obtain ⟨failures', hrest⟩ := hrest
        rw [wrapAll_cons_of_ok rest hw, map_of_ok hrest] at h
        cases h
        exact .inr ⟨transport, rfl, rfl⟩
      | error err t =>
        rw [endState_of_error hw] at hrest
        obtain ⟨failures', hrest⟩ := hrest
        rw [wrapAll_cons_of_error rest hw, map_of_ok hrest] at h
        cases h
        exact .inl ⟨rfl, .inr ⟨err, rfl⟩⟩
    · obtain ⟨err, hw⟩ := hs d List.mem_cons_self heq
      rw [wrapAll_cons_of_error rest hw] at h
      obtain ⟨⟨keys', failures'⟩, hrest, hk⟩ := map_eq_ok_iff.mp h
      cases hk
      exact ih hn hs' ht' hrest

theorem exists_of_prepare_eq_ok {recipients : List Account} {plaintext : Bytes}
    {allowed : DeviceSet} {s t : Scene} {verdict : TrustVerdict} {key : ContentKey}
    {payload : Payload}
    (h : prepare recipients plaintext allowed s = .ok (verdict, key, payload) t) :
    ∃ devices, resolveOthers s recipients = .ok devices ∧
      s.messenger.store.trust.require devices allowed = .ok verdict := by
  rw [prepare, bind_get] at h
  obtain ⟨devices, t₁, hx, h⟩ := bind_eq_ok_iff.mp h
  obtain ⟨hd, rfl⟩ := Action.ofExcept_eq_ok_iff.mp hx
  obtain ⟨verdict', t₂, hx, h⟩ := bind_eq_ok_iff.mp h
  obtain ⟨hv, rfl⟩ := Action.ofExcept_eq_ok_iff.mp hx
  obtain ⟨key', t₃, -, h⟩ := bind_eq_ok_iff.mp h
  obtain ⟨payload', t₄, -, h⟩ := bind_eq_ok_iff.mp h
  cases h
  exact ⟨devices, hd, hv⟩

/-- A message does not go to the device that sends it. -/
theorem address_notMem_of_prepare {recipients : List Account} {plaintext : Bytes}
    {allowed : DeviceSet} {s t : Scene} {verdict : TrustVerdict} {key : ContentKey}
    {payload : Payload}
    (h : prepare recipients plaintext allowed s = .ok (verdict, key, payload) t) :
    s.messenger.address ∉ verdict.accepted := by
  obtain ⟨devices, hresolve, hrequire⟩ := exists_of_prepare_eq_ok h
  intro hmem
  have hd := TrustTable.mem_of_mem_accepted hrequire hmem
  unfold resolveOthers at hresolve
  cases hr : resolve s s.messenger.settings.resolveTimeout (s.messenger.audience recipients) with
  | error err =>
    rw [hr] at hresolve
    cases hresolve
  | ok found =>
    rw [hr] at hresolve
    cases hresolve
    exact (Std.ExtTreeSet.mem_erase.mp hd).1 Std.ReflCmp.compare_self

/-- Wrapping for several devices does not fail. -/
theorem exists_wrapAll (key : ContentKey) (devices : List DeviceAddress) (s : Scene) :
    ∃ a t, wrapAll key devices s = .ok a t := by
  induction devices generalizing s with
  | nil => exact ⟨_, s, rfl⟩
  | cons device rest ih =>
    cases hw : wrapFor key device s with
    | ok transport t =>
      obtain ⟨a, u, hrest⟩ := ih t
      exact ⟨_, u, (wrapAll_cons_of_ok rest hw).trans (map_of_ok hrest)⟩
    | error err t =>
      obtain ⟨a, u, hrest⟩ := ih t
      exact ⟨_, u, (wrapAll_cons_of_error rest hw).trans (map_of_ok hrest)⟩

theorem wrapAll_preserves {p : Scene → Prop}
    (hwrap : ∀ key device s, p s → p (endState (wrapFor key device) s)) (key : ContentKey)
    (devices : List DeviceAddress) {s : Scene} (hs : p s) :
    p (endState (wrapAll key devices) s) := by
  induction devices generalizing s with
  | nil => exact hs
  | cons device rest ih =>
    rw [endState_wrapAll_cons]
    exact ih (hwrap key device s hs)

/-- What wrapping for a device preserves, encrypting preserves, whatever is drawn for it. -/
theorem encryptFor_preserves {p : Scene → Prop}
    (hentropy : ∀ (s : Scene) (e : Entropy), p s → p { s with entropy := e })
    (hwrap : ∀ key device s, p s → p (endState (wrapFor key device) s))
    (recipients : List Account) (plaintext : Bytes) (allowed : DeviceSet) {s : Scene} (hs : p s) :
    p (endState (encryptFor recipients plaintext allowed) s) := by
  have hprepared : p (endState (prepare recipients plaintext allowed) s) := by
    have hleaves : Leaves (fun t : Scene => (t.messenger, t.directory, t.now))
        (prepare recipients plaintext allowed) := prepare_leaves (fun _ _ => rfl) _ _ _
    obtain ⟨hmessenger, hrest⟩ := Prod.mk.inj (hleaves s)
    obtain ⟨hdirectory, hnow⟩ := Prod.mk.inj hrest
    have hback := hentropy s (endState (prepare recipients plaintext allowed) s).entropy hs
    rw [← hmessenger, ← hdirectory, ← hnow] at hback
    exact hback
  rw [encryptFor_eq, endState_bind_get]
  refine endState_bind_induction hprepared ?_
  rintro ⟨verdict, key, payload⟩ t - ht
  exact endState_bind_induction (wrapAll_preserves hwrap key verdict.accepted.toList ht)
    fun _ _ _ hu => hu

/-- Encrypting changes nothing but sessions, trust decisions, the directory and randomness. -/
theorem encryptFor_leaves {γ : Type} {view : Scene → γ} (hv : IgnoresTraffic view)
    (recipients : List Account) (plaintext : Bytes) (allowed : DeviceSet) :
    Leaves view (encryptFor recipients plaintext allowed) := fun s =>
  encryptFor_preserves (p := fun t => view t = view s) (fun t e ht => (hv.entropy t e).trans ht)
    (fun key device t ht => (wrapFor_leaves hv key device t).trans ht) recipients plaintext allowed
    rfl

/-- An encryption that fails does so before it turns to the devices. -/
theorem prepare_of_encryptFor_eq_error {recipients : List Account} {plaintext : Bytes}
    {allowed : DeviceSet} {s s' : Scene} {err : Error}
    (h : encryptFor recipients plaintext allowed s = .error err s') :
    prepare recipients plaintext allowed s = .error err s' := by
  rw [encryptFor_eq, bind_get] at h
  rcases bind_eq_error_iff.mp h with hprepare | ⟨⟨verdict, key, payload⟩, t, -, hrest⟩
  · exact hprepare
  · obtain ⟨a, u, hw⟩ := exists_wrapAll key verdict.accepted.toList t
    rcases bind_eq_error_iff.mp hrest with hw' | ⟨_, _, -, hpure⟩
    · cases hw.symm.trans hw'
    · cases hpure

/-- An encryption that succeeds prepared, and wrapped the content key for the devices accepted. -/
theorem exists_of_encryptFor_eq_ok {recipients : List Account} {plaintext : Bytes}
    {allowed : DeviceSet} {s s' : Scene} {encryption : Encryption}
    (h : encryptFor recipients plaintext allowed s = .ok encryption s') :
    ∃ verdict key payload t keys failures,
      prepare recipients plaintext allowed s = .ok (verdict, key, payload) t ∧
      wrapAll key verdict.accepted.toList t = .ok (keys, failures) s' ∧
      encryption = {
        envelope :=
          { sender := s.messenger.address, keys, payload, hints := s.messenger.settings.hints }
        failures
        untrusted := verdict.untrusted } := by
  rw [encryptFor_eq, bind_get] at h
  obtain ⟨⟨verdict, key, payload⟩, t, hp, h⟩ := bind_eq_ok_iff.mp h
  obtain ⟨⟨keys, failures⟩, t', hw, h⟩ := bind_eq_ok_iff.mp h
  cases h
  exact ⟨verdict, key, payload, t, keys, failures, hp, hw, rfl⟩

/-! ## Reading -/

/-- An unwrapping that succeeds keeps what the session made of the store. -/
theorem unwrapFrom_eq_ok_iff {sender : DeviceAddress} {transport : KeyTransport} {s t : Scene}
    {u : KeyWrap.Unwrapped} :
    unwrapFrom sender transport s = .ok u t ↔ ∃ st e,
      KeyWrap.unwrap s.messenger.settings.keyWrap s.messenger.store sender transport s.entropy =
        .ok (u, st) e ∧
      t = if u.consumed.isSome then ({ s.setStore st with entropy := e } : Scene).setNeedsPublishing
        true else { s.setStore st with entropy := e } := by
  have hunwrap : ∀ {t₁ : Scene}, unwrap sender transport s = .ok u t₁ ↔ ∃ st e,
      KeyWrap.unwrap s.messenger.settings.keyWrap s.messenger.store sender transport s.entropy =
        .ok (u, st) e ∧ t₁ = { s.setStore st with entropy := e } := by
    intro t₁
    rw [unwrap, bind_get]
    exact Action.changeStore_eq_ok_iff
  constructor
  · intro h
    obtain ⟨u', t₁, hu, h⟩ := bind_eq_ok_iff.mp h
    cases hc : u'.consumed.isSome with
    | true =>
      rw [hc, if_pos rfl] at h
      cases h
      obtain ⟨st, e, hk, rfl⟩ := hunwrap.mp hu
      exact ⟨st, e, hk, by rw [if_pos hc]⟩
    | false =>
      rw [hc, if_neg Bool.false_ne_true] at h
      cases h
      obtain ⟨st, e, hk, rfl⟩ := hunwrap.mp hu
      exact ⟨st, e, hk, by rw [hc, if_neg Bool.false_ne_true]⟩
  · rintro ⟨st, e, hk, rfl⟩
    refine bind_eq_ok_iff.mpr ⟨u, _, hunwrap.mpr ⟨st, e, hk, rfl⟩, ?_⟩
    cases hc : u.consumed.isSome <;> rfl

/-- An unwrapping that fails uses randomness and changes nothing else. -/
theorem exists_of_unwrapFrom_eq_error {sender : DeviceAddress} {transport : KeyTransport}
    {s t : Scene} {err : Error} (h : unwrapFrom sender transport s = .error err t) :
    ∃ e, Entropy.Later s.entropy e ∧ t = { s with entropy := e } := by
  rcases bind_eq_error_iff.mp h with h | ⟨u, t₁, -, h⟩
  · rw [unwrap, bind_get] at h
    obtain ⟨e, hk, rfl⟩ := Action.changeStore_eq_error_iff.mp h
    exact ⟨e, (KeyWrap.unwrap_advances _ _ _ _).of_error hk, rfl⟩
  · cases hc : u.consumed.isSome <;> rw [hc] at h <;> cases h

/-- An envelope is read when its key is unwrapped and opens the payload. -/
theorem decrypt_of_unwrapFrom {sender : DeviceAddress} {envelope : Envelope} {s t : Scene}
    {transport : KeyTransport} {u : KeyWrap.Unwrapped} {plaintext : Bytes}
    (hsender : envelope.sender = sender)
    (hkey : envelope.keyFor s.messenger.address = some transport)
    (hu : unwrapFrom sender transport s = .ok u t)
    (hp : u.key.decrypt envelope.payload sender = .ok plaintext) :
    decrypt sender envelope s =
      (.decrypted {
        plaintext
        sender
        trust := (endState (observeIdentity sender u.identity) t).messenger.trustState sender
        fingerprint := u.identity.fingerprint },
      endState (observeIdentity sender u.identity) t) := by
  have hread : read sender envelope s = .ok (some {
        plaintext
        sender
        trust := (endState (observeIdentity sender u.identity) t).messenger.trustState sender
        fingerprint := u.identity.fingerprint })
      (endState (observeIdentity sender u.identity) t) := by
    rw [read, if_pos hsender, bind_get, hkey]
    simp only
    rw [bind_of_ok hu, bind_of_ok (noteIdentity_eq_ok _ _ _), hp]
    rfl
  simp only [decrypt, hread]

/-- A message that is read was opened with the content key that was unwrapped. -/
theorem exists_of_decrypt_eq_decrypted {sender : DeviceAddress} {envelope : Envelope}
    {s t : Scene} {message : ClearText}
    (h : decrypt sender envelope s = (.decrypted message, t)) :
    envelope.sender = sender ∧ ∃ transport u s₁,
      envelope.keyFor s.messenger.address = some transport ∧
      unwrapFrom sender transport s = .ok u s₁ ∧
      u.key.decrypt envelope.payload sender = .ok message.plaintext := by
  have hread : read sender envelope s = .ok (some message) t := by
    unfold decrypt at h
    split at h <;> cases h
    next hread => exact hread
  unfold read at hread
  by_cases hsender : envelope.sender = sender
  · rw [if_pos hsender, bind_get] at hread
    cases hkey : envelope.keyFor s.messenger.address with
    | none =>
      rw [hkey] at hread
      cases hread
    | some transport =>
      simp only [hkey] at hread
      obtain ⟨u, s₁, hu, hread⟩ := bind_eq_ok_iff.mp hread
      obtain ⟨-, s₂, -, hread⟩ := bind_eq_ok_iff.mp hread
      obtain ⟨plaintext, s₃, hp, hread⟩ := bind_eq_ok_iff.mp hread
      obtain ⟨s₄, s₅, -, hread⟩ := bind_eq_ok_iff.mp hread
      cases hread
      exact ⟨hsender, transport, u, s₁, rfl, hu, (Action.ofExcept_eq_ok_iff.mp hp).1⟩
  · rw [if_neg hsender] at hread
    cases hread

/-- An envelope without a key for the device is not read. -/
theorem decrypt_of_keyFor_eq_none {sender : DeviceAddress} {envelope : Envelope} {s : Scene}
    (hsender : envelope.sender = sender) (hkey : envelope.keyFor s.messenger.address = none) :
    decrypt sender envelope s = (.notForMe sender, s) := by
  have hread : read sender envelope s = .ok none s := by
    rw [read, if_pos hsender, bind_get, hkey]
    rfl
  simp only [decrypt, hread]

/-- An envelope whose key cannot be unwrapped is not read. -/
theorem decrypt_of_unwrapFrom_error {sender : DeviceAddress} {envelope : Envelope} {s t : Scene}
    {transport : KeyTransport} {err : Error} (hsender : envelope.sender = sender)
    (hkey : envelope.keyFor s.messenger.address = some transport)
    (hu : unwrapFrom sender transport s = .error err t) :
    (∃ device, decrypt sender envelope s = (.notForMe device, t)) ∨
      decrypt sender envelope s = (.failed err, t) := by
  have hread : read sender envelope s = .error err t := by
    rw [read, if_pos hsender, bind_get, hkey]
    exact bind_of_error hu
  cases err with
  | noSession device => exact .inl ⟨device, by simp only [decrypt, hread]⟩
  | _ => exact .inr (by simp only [decrypt, hread])

/-- A reading ends where the unwrapping does, after the identity shown was noted. -/
theorem endState_read (sender : DeviceAddress) (envelope : Envelope) (s : Scene) :
    endState (read sender envelope) s =
      if envelope.sender = sender then
        match envelope.keyFor s.messenger.address with
        | none => s
        | some transport =>
          match unwrapFrom sender transport s with
          | .error _ t => t
          | .ok unwrapped t => endState (observeIdentity sender unwrapped.identity) t
      else s := by
  by_cases hsender : envelope.sender = sender
  · rw [if_pos hsender, read, if_pos hsender]
    rw [endState_bind_get]
    cases envelope.keyFor s.messenger.address with
    | none => rfl
    | some transport =>
      simp only
      cases h : unwrapFrom sender transport s with
      | error err t => rw [endState_bind_of_error h]
      | ok unwrapped t =>
        rw [endState_bind_of_ok h, endState_bind_of_ok (noteIdentity_eq_ok _ _ _)]
        have hrest : Leaves id (Action.ofExcept (unwrapped.key.decrypt envelope.payload sender) >>=
            fun plaintext => get >>= fun s : Scene => pure (some ({
              plaintext, sender, trust := s.messenger.trustState sender
              fingerprint := unwrapped.identity.fingerprint } : ClearText))) :=
          (Leaves.ofExcept _).bind fun _ => Leaves.get.bind fun _ => Leaves.pure _
        exact hrest _
  · rw [if_neg hsender, read, if_neg hsender]
    rfl

theorem unwrapFrom_leaves {γ : Type} {view : Scene → γ} (hv : IgnoresTraffic view)
    (sender : DeviceAddress) (transport : KeyTransport) :
    Leaves view (unwrapFrom sender transport) := by
  refine Leaves.bind ?_ fun u => ?_
  · refine Leaves.get.bind fun s => Leaves.changeStore _ hv.entropy fun s u st e e' hu => ?_
    obtain ⟨existing, reading, -, -, -, -, -, -, rfl⟩ := KeyWrap.exists_of_unwrap_eq_ok hu
    cases u.consumed with
    | none => exact hv.stored s _ _
    | some id =>
      refine (hv.oneTimePreKeys (s.setStore
        (s.messenger.store.saveSession sender reading.record)) _).trans ?_
      exact hv.stored s _ _
  · cases u.consumed.isSome with
    | true => exact (Leaves.modify fun s => hv.needsPublishing s true).bind fun _ => Leaves.pure _
    | false => exact Leaves.pure _

/-- Reading changes nothing but sessions, trust decisions, one-time pre-keys, the note whether the
bundle has to be published and randomness. -/
theorem read_leaves {γ : Type} {view : Scene → γ} (hv : IgnoresTraffic view)
    (sender : DeviceAddress) (envelope : Envelope) : Leaves view (read sender envelope) := by
  have hnoted : ∀ identity, Leaves view (noteIdentity sender identity) := by
    intro identity s
    rw [endState_of_ok (noteIdentity_eq_ok sender identity s)]
    exact observeIdentity_leaves (fun s trust => hv.stored s _ trust) sender identity s
  refine Leaves.ite (Leaves.get.bind fun s => ?_) (Leaves.throw _)
  split
  · exact Leaves.pure _
  · refine (unwrapFrom_leaves hv sender _).bind fun u => (hnoted u.identity).bind fun _ => ?_
    exact (Leaves.ofExcept _).bind fun _ => Leaves.get.bind fun _ => Leaves.pure _

end Messenger

end MultiDevice
