import MultiDevice.Proofs.Trust.Pinned

/-!
# No state becomes more lenient by itself, but one

An untrusted device gets nothing, an undecided one gets what it is allowed to get, and a trusted one
gets everything. Left to themselves, states become no more lenient, with one exception: a key of
another point takes a device back to undecided from wherever it was. So an untrusted device that
sends a message under a new identity is undecided afterwards.

## Main definitions

* `TrustState.leniency`: how much a state lets through
* `Request.Rekeys`: a message of a device is read that shows a new identity of it

## Main results

* `Request.check_of_rekeys`, `.check_of_not_rekeys`: what becomes of a device in a request
* `Scene.more_lenient_iff_rekeys`: the one way to a more lenient state, and what an untrusted device
  gets as long as it is not taken
-/

namespace MultiDevice

/-- How much a state lets through: nothing, what is allowed, or everything. -/
def TrustState.leniency : TrustState → Nat
  | untrusted => 0
  | undecided => 1
  | trusted => 2

open TrustTable (see check record)

/-- What other devices show leaves the record of a device alone. -/
theorem TrustTable.record_foldl_see_of_others (t : TrustTable) {device : DeviceAddress}
    {events : List TrustEvent}
    (h : ∀ event ∈ events, ∃ d identity, event = .shown d identity ∧ d ≠ device) :
    record (events.foldl see t) device = record t device := by
  induction events generalizing t with
  | nil => rfl
  | cons event events ih =>
    obtain ⟨d, identity, rfl, hd⟩ := h event List.mem_cons_self
    rw [List.foldl_cons, ih _ fun event he => h event (List.mem_cons_of_mem _ he),
      record_see_shown_of_ne _ _ hd]

/-- A first key, or one of the point on record, leaves the state of a device. -/
theorem TrustTable.check_see_shown_of_samePoint {t : TrustTable} {device : DeviceAddress}
    {identity : PublicKey}
    (h : ∀ known, (record t device).identity = some known → known.SamePoint identity) :
    check (t.see (.shown device identity)) device = check t device := by
  rw [check, record_see]
  cases hk : (record t device).identity with
  | none => simp [TrustEvent.turn?, check]
  | some known => simp [TrustEvent.turn?, h known hk, check]

/-- A key of another point takes a device back to undecided, wherever it was. -/
theorem TrustTable.check_see_shown_of_other {t : TrustTable} {device : DeviceAddress}
    {identity known : PublicKey} (hk : (record t device).identity = some known)
    (h : ¬ known.SamePoint identity) :
    check (t.see (.shown device identity)) device = .undecided := by
  rw [check, record_see]
  simp [TrustEvent.turn?, hk, h, TrustTurn.state]

section Run

variable [CipherSuite]

/-- Only the device whose bundle is fetched shows a key by it. -/
theorem exists_of_mem_shownByBundle {device : DeviceAddress} {s : Scene} {event : TrustEvent}
    (h : event ∈ shownByBundle device s) : ∃ identity, event = .shown device identity := by
  unfold shownByBundle at h
  split at h
  · exact absurd h List.not_mem_nil
  · split at h
    · exact absurd h List.not_mem_nil
    · split at h
      · exact absurd h List.not_mem_nil
      · exact ⟨_, List.mem_singleton.mp h⟩

/-- Only the devices that a content key is wrapped for show keys meanwhile. -/
theorem exists_of_mem_shownByWrapAll {key : ContentKey} {devices : List DeviceAddress} {s : Scene}
    {event : TrustEvent} (h : event ∈ shownByWrapAll key devices s) :
    ∃ d ∈ devices, ∃ identity, event = .shown d identity := by
  induction devices generalizing s with
  | nil => exact absurd h List.not_mem_nil
  | cons device rest ih =>
    rcases List.mem_append.mp h with h | h
    · exact ⟨device, List.mem_cons_self, exists_of_mem_shownByBundle h⟩
    · obtain ⟨d, hd, hevent⟩ := ih h
      exact ⟨d, List.mem_cons_of_mem _ hd, hevent⟩

/-- No untrusted device shows a key while a message is encrypted: none is fetched from. -/
theorem exists_of_mem_shownByEncryption {recipients : List Account} {plaintext : Bytes}
    {allowed : DeviceSet} {s : Scene} {device : DeviceAddress} {event : TrustEvent}
    (hu : s.trust.check device = .untrusted)
    (h : event ∈ shownByEncryption recipients plaintext allowed s) :
    ∃ d identity, event = .shown d identity ∧ d ≠ device := by
  unfold shownByEncryption at h
  split at h
  · exact absurd h List.not_mem_nil
  · next verdict key payload t hp =>
    obtain ⟨d, hd, identity, rfl⟩ := exists_of_mem_shownByWrapAll h
    refine ⟨d, identity, rfl, ?_⟩
    rintro rfl
    obtain ⟨devices, -, hr⟩ := Messenger.exists_of_prepare_eq_ok hp
    have haccepted : d ∈ verdict.accepted := Std.ExtTreeSet.mem_toList.mp hd
    rcases TrustTable.check_of_mem_accepted hr haccepted with ht | ⟨ht, -⟩
    · cases hu.symm.trans ht
    · cases hu.symm.trans ht

/-- A message of a device is read, and the session that it is read with is with an identity of
another point than the one on record for the device. -/
def Request.Rekeys (device : DeviceAddress) (request : Request) (s : Scene) : Prop :=
  ∃ envelope identity known, request = .decrypt device envelope ∧
    .shown device identity ∈ request.events s ∧
    (s.trust.record device).identity = some known ∧ ¬ known.SamePoint identity

/-- A message that is read shows one key of its sender, and one that is not shows none. -/
theorem shownByReading_cases (sender : DeviceAddress) (envelope : Envelope) (s : Scene) :
    shownByReading sender envelope s = [] ∨
      ∃ identity, shownByReading sender envelope s = [.shown sender identity] := by
  unfold shownByReading
  split
  · split
    · exact .inl rfl
    · split
      · exact .inl rfl
      · exact .inr ⟨_, rfl⟩
  · exact .inl rfl

namespace Request

variable {request : Request} {device : DeviceAddress} {s : Scene}

/-- A device that shows a new identity in a message is undecided. -/
theorem check_of_rekeys (h : request.Rekeys device s) :
    (request.perform s).trust.check device = .undecided := by
  obtain ⟨envelope, identity, known, rfl, hm, hk, hother⟩ := h
  rw [perform_trust]
  rcases shownByReading_cases device envelope s with hnone | ⟨identity', hone⟩
  · rw [events, hnone] at hm
    exact absurd hm List.not_mem_nil
  · rw [events, hone] at hm ⊢
    cases List.mem_singleton.mp hm
    exact TrustTable.check_see_shown_of_other hk hother

/-- An untrusted device that is not decided on and shows no new identity in a message stays
untrusted. -/
theorem check_of_not_rekeys (h : ∀ state, request ≠ .decideTrust device state)
    (hu : s.trust.check device = .untrusted) (hr : ¬ request.Rekeys device s) :
    (request.perform s).trust.check device = .untrusted := by
  rw [perform_trust]
  have stays : (∀ event ∈ request.events s, ∃ d identity, event = .shown d identity ∧ d ≠ device) →
      check ((request.events s).foldl see s.trust) device = .untrusted := by
    intro hothers
    rw [check, TrustTable.record_foldl_see_of_others _ hothers]
    exact hu
  cases request with
  | encryptFor recipients plaintext allowed =>
    exact stays fun event he => exists_of_mem_shownByEncryption hu he
  | decideTrust d state =>
    have hd : d ≠ device := fun hd => h state (hd ▸ rfl)
    change (TrustTable.record (s.trust.decide d state) device).state = _
    rw [TrustTable.decide, TrustTable.record_update, if_neg hd]
    exact hu
  | decrypt sender envelope =>
    rcases shownByReading_cases sender envelope s with hnone | ⟨identity, hone⟩
    · rw [events, hnone]
      exact hu
    · have hevents : events (.decrypt sender envelope) s = [.shown sender identity] := hone
      by_cases hd : sender = device
      · subst hd
        rw [hevents]
        refine (TrustTable.check_see_shown_of_samePoint fun known hk => ?_).trans hu
        by_contra hother
        refine hr ⟨envelope, identity, known, rfl, ?_, hk, hother⟩
        rw [hevents]
        exact List.mem_singleton_self _
      · refine stays fun event he => ⟨sender, identity, ?_, hd⟩
        rw [hevents] at he
        exact List.mem_singleton.mp he
  | _ => exact hu

/-- A request that does not decide on a device makes its state more lenient in one case only. -/
theorem more_lenient_iff (h : ∀ state, request ≠ .decideTrust device state) :
    (s.trust.check device).leniency < ((request.perform s).trust.check device).leniency ↔
      s.trust.check device = .untrusted ∧ request.Rekeys device s := by
  constructor
  · intro hlt
    rcases check_perform h s with heq | hundecided
    · rw [heq] at hlt
      exact absurd hlt (Nat.lt_irrefl _)
    · rw [hundecided] at hlt
      have hu : s.trust.check device = .untrusted := by
        cases hs : s.trust.check device with
        | untrusted => rfl
        | undecided =>
          rw [hs] at hlt
          exact absurd hlt (by decide)
        | trusted =>
          rw [hs] at hlt
          exact absurd hlt (by decide)
      refine ⟨hu, ?_⟩
      by_contra hr
      cases hundecided.symm.trans (check_of_not_rekeys h hu hr)
  · rintro ⟨hu, hr⟩
    rw [hu, check_of_rekeys hr]
    decide

end Request

/-- An untrusted device stays so over a run that does not decide on it and in which it shows no new
identity. -/
theorem Scene.check_run_of_untrusted {device : DeviceAddress} {requests : List Request} {s : Scene}
    (hu : s.trust.check device = .untrusted)
    (h : ∀ before request after, requests = before ++ request :: after →
      (∀ state, request ≠ .decideTrust device state) ∧ ¬ request.Rekeys device (s.run before)) :
    (s.run requests).trust.check device = .untrusted := by
  induction requests generalizing s with
  | nil => exact hu
  | cons request requests ih =>
    obtain ⟨hdecides, hrekeys⟩ := h [] request requests rfl
    refine ih (Request.check_of_not_rekeys hdecides hu hrekeys) fun before request' after heq => ?_
    exact h (request :: before) request' after (by rw [heq]; rfl)

/-- **No state becomes more lenient by itself, but one.** Whatever a messenger is asked to do, other
than to decide on a device, the state of the device is no more lenient afterwards, unless the device
was untrusted and a message of it was read that shows a new identity; then it is undecided. So as
long as an untrusted device is not decided on and shows no new identity, it stays untrusted and no
envelope carries a key for it, whatever the encryption was allowed. -/
theorem Scene.more_lenient_iff_rekeys (device : DeviceAddress) (s : Scene) :
    (∀ request : Request, (∀ state, request ≠ .decideTrust device state) →
      ((s.messenger.trustState device).leniency <
          ((request.perform s).messenger.trustState device).leniency ↔
        s.messenger.trustState device = .untrusted ∧ request.Rekeys device s) ∧
      (request.Rekeys device s →
        (request.perform s).messenger.trustState device = .undecided)) ∧
    (s.messenger.trustState device = .untrusted → ∀ requests : List Request,
      (∀ before request after, requests = before ++ request :: after →
        (∀ state, request ≠ .decideTrust device state) ∧
          ¬ request.Rekeys device (s.run before)) →
      (s.run requests).messenger.trustState device = .untrusted ∧
        ∀ recipients plaintext allowed encryption s',
          Messenger.encryptFor recipients plaintext allowed (s.run requests) =
            .ok encryption s' →
          device ∉ encryption.envelope.recipients) := by
  refine ⟨fun request h => ⟨Request.more_lenient_iff h, Request.check_of_rekeys⟩,
    fun hu requests h => ?_⟩
  have hstays : (s.run requests).trust.check device = .untrusted := check_run_of_untrusted hu h
  refine ⟨hstays, fun recipients plaintext allowed encryption s' he hmem => ?_⟩
  rcases Messenger.check_of_mem_recipients he hmem with ht | ⟨ht, -⟩
  · cases hstays.symm.trans ht
  · cases hstays.symm.trans ht

/-- If an event shows a key of the device, then one of this point. -/
def TrustEvent.Familiar (device : DeviceAddress) (known : PublicKey) : TrustEvent → Prop
  | .shown d identity => d = device → known.SamePoint identity
  | .decided _ _ => True

instance (device : DeviceAddress) (known : PublicKey) (event : TrustEvent) :
    Decidable (event.Familiar device known) :=
  match event with
  | .shown d identity => inferInstanceAs (Decidable (d = device → known.SamePoint identity))
  | .decided _ _ => isTrue trivial

/-- A device that shows no key but that on record does not come under a new identity. -/
theorem Request.not_rekeys_of_familiar {request : Request} {device : DeviceAddress} {s : Scene}
    (h : ∀ known ∈ (s.trust.record device).identity, ∀ event ∈ request.events s,
      event.Familiar device known) : ¬ request.Rekeys device s := by
  rintro ⟨envelope, identity, known, -, hshown, hknown, hother⟩
  exact hother (h known hknown _ hshown rfl)

end Run

section Letters

attribute [local instance] CipherSuite.transparent

namespace Scene

/-- Two messages of a device to one that published its bundle, between which the device is asked for
other things, and what the world is after them. -/
def letters? (start : Scene) (between : List Request) : Option (Envelope × Envelope × Scene) := do
  let home := start.run [.publishBundle]
  let bob ← joining? ⟨"bob", 1⟩ start.messenger.settings home.directory home.entropy
  let greet (bob : Scene) : Option (Envelope × Scene) :=
    match Messenger.encryptFor ["alice"] [1, 2, 3] ∅ bob with
    | .ok encryption bob => some (encryption.envelope, bob)
    | .error _ _ => none
  let (first, bob) ← greet (bob.run [.publishBundle, .decideTrust ⟨"alice", 1⟩ .trusted])
  let (second, bob) ← greet (bob.run between)
  return (first, second, bob)

/-- A first message is read, and its sender is untrusted from then on. -/
def distrusted (first : Envelope) (world : Scene) : List Request :=
  [.publishBundle, .surroundings world.directory world.now world.entropy,
    .decrypt ⟨"bob", 1⟩ first, .decideTrust ⟨"bob", 1⟩ .untrusted]

/-- A device that is distrusted, and writes under the identity on record, gets nothing, whatever is
allowed. -/
theorem untrusted_of_undisturbed :
    ∃ start first second world message, Provisioned start ∧
      start.letters? [] = some (first, second, world) ∧
      (Messenger.decrypt ⟨"bob", 1⟩ second
        (start.run (distrusted first world ++ [.rotate]))).1 = .decrypted message ∧
      (start.run (distrusted first world ++
        [.rotate, .decrypt ⟨"bob", 1⟩ second])).messenger.trustState ⟨"bob", 1⟩ = .untrusted ∧
      ∀ recipients plaintext allowed encryption s',
        Messenger.encryptFor recipients plaintext allowed
          (start.run (distrusted first world ++ [.rotate, .decrypt ⟨"bob", 1⟩ second])) =
            .ok encryption s' →
        ⟨"bob", 1⟩ ∉ encryption.envelope.recipients := by
  have hstart : (newcomer? ⟨"alice", 1⟩).any fun start =>
      (start.letters? []).any fun (first, second, world) =>
        let before := start.run (distrusted first world)
        before.messenger.trustState ⟨"bob", 1⟩ = .untrusted ∧
        (∀ known ∈ ((before.run [.rotate]).trust.record ⟨"bob", 1⟩).identity,
          ∀ event ∈ Request.events (.decrypt ⟨"bob", 1⟩ second) (before.run [.rotate]),
            event.Familiar ⟨"bob", 1⟩ known) ∧
        (Messenger.decrypt ⟨"bob", 1⟩ second
          (start.run (distrusted first world ++ [.rotate]))).1.result.toOption.isSome := by
    decide +kernel
  obtain ⟨start, hsome, hp⟩ := (Option.any_eq_true _ _).mp hstart
  obtain ⟨⟨first, second, world⟩, hletters, hp⟩ := (Option.any_eq_true _ _).mp hp
  obtain ⟨huntrusted, hfamiliar, hread⟩ := of_decide_eq_true hp
  obtain ⟨message, hmessage⟩ := Option.isSome_iff_exists.mp hread
  refine ⟨start, first, second, world, message, provisioned_of_newcomer hsome, hletters,
    Decryption.eq_of_result_eq_some hmessage, ?_⟩
  rw [run_append]
  refine (more_lenient_iff_rekeys ⟨"bob", 1⟩ (start.run (distrusted first world))).2 huntrusted
    [.rotate, .decrypt ⟨"bob", 1⟩ second] fun before request after heq => ?_
  rcases before with _ | ⟨_, _ | ⟨_, before⟩⟩
  · cases heq
    exact ⟨nofun, fun ⟨_, _, _, hr, _⟩ => nomatch hr⟩
  · cases heq
    exact ⟨nofun, Request.not_rekeys_of_familiar hfamiliar⟩
  · simp at heq

/-- Two first messages, the second under an identity that the sender made anew in between, and what
the world is after them. -/
def renewed? (start : Scene) : Option (Envelope × Envelope × Scene) :=
  start.letters? [.regenerate]

/-- An untrusted device gets a key again once it wrote under a new identity, though nothing was
decided on it in between. -/
theorem key_for_untrusted :
    ∃ start first second world, Provisioned start ∧
      start.renewed? = some (first, second, world) ∧
      (start.run (distrusted first world)).messenger.trustState ⟨"bob", 1⟩ = .untrusted ∧
      ((Request.decrypt ⟨"bob", 1⟩ second).perform
        (start.run (distrusted first world))).messenger.trustState ⟨"bob", 1⟩ = .undecided ∧
      ∃ encryption s', Messenger.encryptFor ["bob"] [4]
          (Std.ExtTreeSet.ofList [(⟨"bob", 1⟩ : DeviceAddress)])
          ((Request.decrypt ⟨"bob", 1⟩ second).perform (start.run (distrusted first world))) =
            .ok encryption s' ∧
        ⟨"bob", 1⟩ ∈ encryption.envelope.recipients := by
  have hstart : (newcomer? ⟨"alice", 1⟩).any fun start =>
      start.renewed?.any fun (first, second, world) =>
        let before := start.run (distrusted first world)
        let after := (Request.decrypt ⟨"bob", 1⟩ second).perform before
        before.messenger.trustState ⟨"bob", 1⟩ = .untrusted ∧
        after.messenger.trustState ⟨"bob", 1⟩ = .undecided ∧
        (answer? (Messenger.encryptFor ["bob"] [4]
          (Std.ExtTreeSet.ofList [(⟨"bob", 1⟩ : DeviceAddress)])) after).any fun encryption =>
            ⟨"bob", 1⟩ ∈ encryption.envelope.recipients := by
    decide +kernel
  obtain ⟨start, hsome, hp⟩ := (Option.any_eq_true _ _).mp hstart
  obtain ⟨⟨first, second, world⟩, hrenewed, hp⟩ := (Option.any_eq_true _ _).mp hp
  obtain ⟨hbefore, hafter, hkey⟩ := of_decide_eq_true hp
  obtain ⟨encryption, hanswer, hmem⟩ := (Option.any_eq_true _ _).mp hkey
  obtain ⟨s', hencrypted⟩ := exists_of_answer? hanswer
  exact ⟨start, first, second, world, provisioned_of_newcomer hsome, hrenewed, hbefore, hafter,
    encryption, s', hencrypted, of_decide_eq_true hmem⟩

end Scene

end Letters

end MultiDevice
