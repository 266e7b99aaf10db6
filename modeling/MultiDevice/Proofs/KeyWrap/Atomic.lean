import MultiDevice.Proofs.KeyWrap.Consumption

/-!
# Wrapping and unwrapping happen entirely or not at all

Wrapping and unwrapping write to the store as they go: first the sessions with the device, then the
pool of one-time pre-keys. A step that fails undoes nothing. Still a content key that cannot be
wrapped or unwrapped leaves no trace, because everything that can fail comes before the first write.

## Main definitions

* `consult`, `amend`: a step that only looks at the store, and one that writes to it
* `wrapInPlace`, `unwrapInPlace`: wrapping and unwrapping as such steps in their order
* `Store.ChangedFor`: a store in which nothing changed but what one device may change

## Main results

* `wrapInPlace_eq`, `unwrapInPlace_eq`: done step by step, wrapping and unwrapping change the store
  as `wrap` and `unwrap` say
* `Store.ChangedFor.of_wrap`, `.of_unwrap`: what is changed when they succeed
* `entirely_or_not_at_all`: when they fail, nothing is changed
-/

namespace MultiDevice

/-- Nothing changed from one store to another but the sessions with a device, and that a one-time
pre-key is gone, if one was used up. -/
structure Store.ChangedFor (device : DeviceAddress) (consumed : Option UInt32)
    (s s' : Store) : Prop where
  identity : s'.identity = s.identity
  signedPreKeys : s'.signedPreKeys = s.signedPreKeys
  trust : s'.trust = s.trust
  sessions : ∀ d, d ≠ device → s'.sessions[d]? = s.sessions[d]?
  nextId : s'.oneTimePreKeys.nextId = s.oneTimePreKeys.nextId
  oneTimePreKeys : ∀ id, s'.oneTimePreKeys.get? id =
    if consumed = some id then none else s.oneTimePreKeys.get? id
  consumed : ∀ id, consumed = some id → id ∈ s.oneTimePreKeys.keys

namespace KeyWrap

/-! ## Steps -/

section Steps

variable {α β : Type} {s : Store} {e e' : Entropy}

/-- A step that looks at the store and draws. It leaves the store as it is. -/
def consult (f : Store → Draw α) : EStateM Error (Store × Entropy) α :=
  fun (s, e) =>
    match f s e with
    | .ok a e => .ok a (s, e)
    | .error err e => .error err (s, e)

/-- A step that writes to the store. -/
def amend (f : Store → Store) : EStateM Error (Store × Entropy) Unit :=
  fun (s, e) => .ok () (f s, e)

theorem consult_of_ok {f : Store → Draw α} {a : α} (h : f s e = .ok a e') :
    consult f (s, e) = .ok a (s, e') := by
  simp only [consult, h]

theorem consult_of_error {f : Store → Draw α} {err : Error} (h : f s e = .error err e') :
    consult f (s, e) = .error err (s, e') := by
  simp only [consult, h]

theorem change_of_ok {f : Store → Draw (α × Store)} {a : α} {s' : Store}
    (h : f s e = .ok (a, s') e') : change f (s, e) = .ok a (s', e') := by
  simp only [change, h]

theorem change_of_error {f : Store → Draw (α × Store)} {err : Error}
    (h : f s e = .error err e') : change f (s, e) = .error err (s, e') := by
  simp only [change, h]

/-- A change that starts by looking at the store is that step and the rest. -/
theorem change_bind (x : Store → Draw β) (f : Store → β → Draw (α × Store)) :
    change (fun s => x s >>= f s) = consult x >>= fun b => change fun s => f s b := by
  funext ⟨s, e⟩
  cases h : x s e with
  | ok b e' =>
    rw [bind_of_ok (consult_of_ok h)]
    simp only [change, bind_of_ok h]
  | error err e' =>
    rw [bind_of_error (consult_of_error h)]
    exact change_of_error (bind_of_error h)

/-- A change keeps what it answers with, or else the store as it was. -/
theorem change_ensures {f : Store → Draw (α × Store)} {p : α → Store → Prop}
    (h : ∀ e a s' e', f s e = .ok (a, s') e' → p a s') :
    Ensures (fun t => t.1 = s) (change f) (fun a t => p a t.1) fun t => t.1 = s := by
  rintro ⟨s, e⟩ rfl
  cases hf : f s e with
  | ok b e' =>
    rw [change_of_ok hf]
    exact h e b.1 b.2 e' hf
  | error err e' => rw [change_of_error hf]

end Steps

section Run

variable [CipherSuite] {c : Settings} {s s' : Store} {device : DeviceAddress} {e e' : Entropy}

/-- Wraps a content key step by step: the sessions with the device are looked up or started, the
current one encrypts, and the sessions are written back. -/
def wrapInPlace (c : Settings) (device : DeviceAddress) (bundle : Option PreKeyBundle)
    (key : ContentKey) : EStateM Error (Store × Entropy) KeyTransport := do
  let record ← consult fun s => recordFor c s device bundle
  match record.current.encrypt key.bytes.toList with
  | .error err _ => throw err
  | .ok message session =>
    amend (·.saveSession device { record with current := session })
    return { preKey := session.pending, message }

/-- Unwraps a content key step by step: the sessions with the device are looked up, the transport is
read, the sessions are written back, and the one-time pre-key used up is removed. -/
def unwrapInPlace (c : Settings) (device : DeviceAddress) (t : KeyTransport) :
    EStateM Error (Store × Entropy) Unwrapped := do
  let existing ← consult fun s => Draw.ofExcept (s.loadSession device)
  let reading ← consult fun s => readTransport c s device existing t
  let key ← consult fun _ => Draw.ofExcept (ContentKey.ofBytes reading.plaintext)
  amend (·.saveSession device reading.record)
  let consumed := reading.consumed t
  if let some id := consumed then
    amend fun s => (s.removeOneTimePreKey id).2
  return { key, identity := reading.identity, newSession := reading.newSession, consumed }

theorem wrapInPlace_eq (c : Settings) (device : DeviceAddress) (bundle : Option PreKeyBundle)
    (key : ContentKey) :
    wrapInPlace c device bundle key = change fun s => wrap c s device bundle key := by
  unfold wrapInPlace wrap
  rw [change_bind]
  congr 1
  funext record ⟨s, e⟩
  simp only [send, change]
  cases record.current.encrypt key.bytes.toList <;> rfl

theorem unwrapInPlace_eq (c : Settings) (device : DeviceAddress) (t : KeyTransport) :
    unwrapInPlace c device t = change fun s => unwrap c s device t := by
  unfold unwrapInPlace unwrap
  rw [change_bind]
  congr 1
  funext existing
  rw [change_bind]
  congr 1
  funext reading
  rw [change_bind]
  congr 1
  funext key ⟨s, e⟩
  dsimp only
  cases reading.consumed t <;> rfl

end Run

end KeyWrap

/-! ## What is changed -/

namespace Store.ChangedFor

open KeyWrap

variable {device : DeviceAddress} {s : Store}

theorem saveSession (s : Store) (device : DeviceAddress) (record : SessionRecord) :
    s.ChangedFor device none (s.saveSession device record) where
  identity := rfl
  signedPreKeys := rfl
  trust := rfl
  sessions _ hd := Entries.insert_of_ne hd
  nextId := rfl
  oneTimePreKeys _ := rfl
  consumed := nofun

/-- A one-time pre-key that was there is removed. -/
theorem removeOneTimePreKey {s' : Store} {id : UInt32} (h : s.ChangedFor device none s')
    (hid : id ∈ s.oneTimePreKeys.keys) :
    s.ChangedFor device (some id) (s'.removeOneTimePreKey id).2 where
  identity := h.identity
  signedPreKeys := h.signedPreKeys
  trust := h.trust
  sessions := h.sessions
  nextId := h.nextId
  oneTimePreKeys id' := by
    change (s'.oneTimePreKeys.keys.erase id)[id']? = _
    rw [Std.ExtTreeMap.getElem?_erase]
    simp only [Std.LawfulEqCmp.compare_eq_iff_eq, Option.some.injEq]
    exact congrArg (ite (id = id') none) (h.oneTimePreKeys id')
  consumed id' hid' := by
    cases hid'
    exact hid

variable [CipherSuite] {c : KeyWrap.Settings} {s' : Store} {t : KeyTransport} {e e' : Entropy}

theorem of_wrap {bundle : Option PreKeyBundle} {key : ContentKey}
    (h : wrap c s device bundle key e = .ok (t, s') e') : s.ChangedFor device none s' := by
  obtain ⟨record, session, -, -, -, rfl⟩ := wrap_eq_ok_iff.mp h
  exact saveSession s device _

theorem of_unwrap {u : Unwrapped} (h : unwrap c s device t e = .ok (u, s') e') :
    s.ChangedFor device u.consumed s' := by
  obtain ⟨existing, reading, -, -, -, -, -, -, rfl⟩ := exists_of_unwrap_eq_ok h
  have hsaved := saveSession s device reading.record
  rcases unwrap_oneTimePreKeys h with ⟨hnone, -⟩ | ⟨id, hsome, hid, -⟩
  · rw [hnone]
    exact hsaved
  · rw [hsome]
    exact hsaved.removeOneTimePreKey hid

end Store.ChangedFor

namespace KeyWrap

section Run

variable [CipherSuite]

/-- A one-time pre-key is used up exactly if the session is new and the header names it. -/
theorem consumed_eq_some_iff {c : Settings} {s s' : Store} {device : DeviceAddress}
    {t : KeyTransport} {u : Unwrapped} {e e' : Entropy}
    (h : unwrap c s device t e = .ok (u, s') e') (id : UInt32) :
    u.consumed = some id ↔ u.newSession = true ∧
      ∃ header, t.preKey = some header ∧ header.oneTimePreKeyId = some id := by
  obtain ⟨existing, reading, -, -, -, -, hnew, hconsumed, -⟩ := exists_of_unwrap_eq_ok h
  rw [hconsumed, hnew, Reading.consumed]
  cases reading.newSession with
  | true => exact Option.bind_eq_some_iff.trans (and_iff_right rfl).symm
  | false => simp

/-- **Wrapping and unwrapping happen entirely or not at all.** From any store and with any
randomness, for any device, bundle, content key and transport: if a step of wrapping or unwrapping
fails, for whatever reason, the store is exactly as it was. If none does, nothing is changed but the
sessions with the device, and a one-time pre-key is removed exactly when the session is new and the
header names it. -/
theorem entirely_or_not_at_all (c : Settings) (s : Store) (device : DeviceAddress)
    (bundle : Option PreKeyBundle) (key : ContentKey) (t : KeyTransport) :
    Ensures (fun st => st.1 = s) (wrapInPlace c device bundle key)
        (fun _ st => s.ChangedFor device none st.1) (fun st => st.1 = s) ∧
      Ensures (fun st => st.1 = s) (unwrapInPlace c device t)
        (fun u st => s.ChangedFor device u.consumed st.1 ∧
          ∀ id, u.consumed = some id ↔ u.newSession = true ∧
            ∃ header, t.preKey = some header ∧ header.oneTimePreKeyId = some id)
        (fun st => st.1 = s) := by
  rw [wrapInPlace_eq, unwrapInPlace_eq]
  constructor
  · exact change_ensures (p := fun _ s' => s.ChangedFor device none s')
      fun _ _ _ _ hw => .of_wrap hw
  · exact change_ensures (p := fun (u : Unwrapped) s' => s.ChangedFor device u.consumed s' ∧
        ∀ id, u.consumed = some id ↔ u.newSession = true ∧
          ∃ header, t.preKey = some header ∧ header.oneTimePreKeyId = some id)
      fun _ _ _ _ hu => ⟨.of_unwrap hu, consumed_eq_some_iff hu⟩

end Run

section Refused

attribute [local instance] CipherSuite.transparent

/-- A transport whose message was changed on the way. -/
def spoiled (t : KeyTransport) : KeyTransport :=
  { t with message := { t.message with ciphertext := [] } }

/-- A first content key that was spoiled on the way is refused and keeps the one-time pre-key; when
it arrives as it was sent, that key is gone and nothing else is but the device's sessions. -/
theorem entirely_or_not_at_all_of_spoiled :
    ∃ s e t, Store.provision 1 .epoch .counting = .ok s e ∧
      (∃ err e', unwrapInPlace MultiDevice.Settings.standard.keyWrap ⟨"bob", 1⟩
        (spoiled t) (s, e) = .error err (s, e')) ∧
      ∃ u s' e', unwrapInPlace MultiDevice.Settings.standard.keyWrap ⟨"bob", 1⟩ t (s, e) =
          .ok u (s', e') ∧ u.newSession = true ∧ s.ChangedFor ⟨"bob", 1⟩ (some 1) s' := by
  let c := MultiDevice.Settings.standard.keyWrap
  have hvisit : (setUp? 1).any fun start => (firstTransport? c start.1 start.2).any fun t =>
      (answer? (unwrapInPlace c ⟨"bob", 1⟩ (spoiled t)) start).isNone &&
        (answer? (unwrapInPlace c ⟨"bob", 1⟩ t) start).any fun u =>
          u.newSession && u.consumed = some 1 := by
    decide +kernel
  obtain ⟨⟨s, e⟩, hstart, hvisit⟩ := (Option.any_eq_true _ _).mp hvisit
  obtain ⟨t, -, hvisit⟩ := (Option.any_eq_true _ _).mp hvisit
  obtain ⟨hrefused, harrived⟩ := (Bool.and_eq_true _ _).mp hvisit
  have hspoiled := (entirely_or_not_at_all c s ⟨"bob", 1⟩ none ⟨Block.zero 32⟩ (spoiled t)).2
    (s, e) rfl
  have hsent := (entirely_or_not_at_all c s ⟨"bob", 1⟩ none ⟨Block.zero 32⟩ t).2 (s, e) rfl
  refine ⟨s, e, t, provision_of_setUp hstart, ?_, ?_⟩
  · cases hu : unwrapInPlace c ⟨"bob", 1⟩ (spoiled t) (s, e) with
    | ok u st =>
      rw [answer?_of_ok hu] at hrefused
      cases hrefused
    | error err st =>
      rw [hu] at hspoiled
      obtain ⟨s', e'⟩ := st
      obtain rfl : s' = s := hspoiled
      exact ⟨err, e', rfl⟩
  · obtain ⟨u, hanswer, hu⟩ := (Option.any_eq_true _ _).mp harrived
    obtain ⟨hnew, hone⟩ := (Bool.and_eq_true _ _).mp hu
    obtain ⟨⟨s', e'⟩, hunwrapped⟩ := exists_of_answer? hanswer
    rw [hunwrapped] at hsent
    have hchanged : s.ChangedFor ⟨"bob", 1⟩ u.consumed s' := hsent.1
    rw [of_decide_eq_true hone] at hchanged
    exact ⟨u, s', e', hunwrapped, hnew, hchanged⟩

end Refused

end KeyWrap

end MultiDevice
