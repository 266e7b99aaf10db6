import MultiDevice.Proofs.Messenger.Outcome

/-!
# Envelopes that cannot be read

An envelope that is not read leaves the device as it was, but for one case: when its key was
unwrapped and the payload does not open under it. By then the session has moved on, a one-time
pre-key may have been used up and the identity was noted; the same envelope with its genuine payload
cannot be read any more.

## Main results

* `Messenger.exists_of_read_eq_error`: the two ways in which reading fails
* `Messenger.of_decrypt_unread`: what an envelope that is not read leaves behind
* `Scene.spoiled_contact`: a spoiled payload uses up the key of the genuine one
-/

namespace MultiDevice

theorem ContentKey.eq_of_decrypt_eq_error [CipherSuite] {key : ContentKey} {payload : Payload}
    {sender : DeviceAddress} {err : Error} (h : key.decrypt payload sender = .error err) :
    err = .payloadNotAuthentic := by
  unfold decrypt at h
  split at h <;> cases h
  rfl

namespace Messenger

section Unread

variable [CipherSuite] {sender : DeviceAddress} {envelope : Envelope} {s t : Scene}

/-- A reading fails before anything but the randomness was used, or because the payload does not
open under the key that was unwrapped. -/
theorem exists_of_read_eq_error {err : Error} (h : read sender envelope s = .error err t) :
    (∃ e, Entropy.Later s.entropy e ∧ t = { s with entropy := e }) ∨
      err = .payloadNotAuthentic ∧ ∃ transport u s₁,
        envelope.keyFor s.messenger.address = some transport ∧
        unwrapFrom sender transport s = .ok u s₁ ∧
        u.key.decrypt envelope.payload sender = .error .payloadNotAuthentic ∧
        t = endState (observeIdentity sender u.identity) s₁ := by
  have hend := endState_of_error h
  rw [endState_read] at hend
  unfold read at h
  by_cases hsender : envelope.sender = sender
  · rw [if_pos hsender] at h hend
    rw [bind_get] at h
    cases hkey : envelope.keyFor s.messenger.address with
    | none =>
      rw [hkey] at h
      cases h
    | some transport =>
      simp only [hkey] at h hend
      cases hu : unwrapFrom sender transport s with
      | error err' s₁ =>
        rw [hu] at hend
        subst hend
        exact .inl (exists_of_unwrapFrom_eq_error hu)
      | ok u s₁ =>
        rw [hu] at hend
        rw [bind_of_ok hu, bind_of_ok (noteIdentity_eq_ok _ _ _)] at h
        cases hp : u.key.decrypt envelope.payload sender with
        | ok plaintext =>
          rw [hp] at h
          cases h
        | error err' =>
          rw [hp] at h
          have herr : err' = err := by
            cases h
            rfl
          have hauthentic := ContentKey.eq_of_decrypt_eq_error hp
          exact .inr ⟨herr ▸ hauthentic, transport, u, s₁, rfl, hu, hauthentic ▸ hp, hend.symm⟩
  · rw [if_neg hsender] at h
    cases h
    exact .inl ⟨s.entropy, Entropy.Later.refl _, rfl⟩

/-- An envelope without a key for the device changes nothing. -/
theorem eq_of_read_eq_none (h : read sender envelope s = .ok none t) : t = s := by
  unfold read at h
  by_cases hsender : envelope.sender = sender
  · rw [if_pos hsender, bind_get] at h
    cases hkey : envelope.keyFor s.messenger.address with
    | none =>
      rw [hkey] at h
      cases h
      rfl
    | some transport =>
      simp only [hkey] at h
      obtain ⟨u, s₁, -, h⟩ := bind_eq_ok_iff.mp h
      obtain ⟨-, s₂, -, h⟩ := bind_eq_ok_iff.mp h
      obtain ⟨plaintext, s₃, -, h⟩ := bind_eq_ok_iff.mp h
      obtain ⟨s₄, s₅, -, h⟩ := bind_eq_ok_iff.mp h
      cases h
  · rw [if_neg hsender] at h
    cases h

/-- An envelope that is not read leaves the device and the directory as they were, unless its key
was unwrapped and the payload does not open under it. -/
theorem of_decrypt_unread {d : Decryption} (h : decrypt sender envelope s = (d, t))
    (hd : ∀ message, d ≠ .decrypted message) :
    (∃ e, Entropy.Later s.entropy e ∧ t = { s with entropy := e }) ∨
      d = .failed .payloadNotAuthentic ∧ ∃ transport u s₁,
        envelope.keyFor s.messenger.address = some transport ∧
        unwrapFrom sender transport s = .ok u s₁ ∧
        u.key.decrypt envelope.payload sender = .error .payloadNotAuthentic ∧
        t = endState (observeIdentity sender u.identity) s₁ := by
  unfold decrypt at h
  split at h
  · cases h
    exact absurd rfl (hd _)
  · next hread =>
    cases h
    rw [eq_of_read_eq_none hread]
    exact .inl ⟨s.entropy, Entropy.Later.refl _, rfl⟩
  · next hread =>
    cases h
    rcases exists_of_read_eq_error hread with hs | ⟨herr, -⟩
    · exact .inl hs
    · cases herr
  · next hread =>
    cases h
    rcases exists_of_read_eq_error hread with hs | ⟨rfl, hrest⟩
    · exact .inl hs
    · exact .inr ⟨rfl, hrest⟩

end Unread

end Messenger

section Spoiled

attribute [local instance] CipherSuite.transparent

/-- The envelope with nothing in its payload. -/
def Envelope.spoiled (e : Envelope) : Envelope :=
  { e with payload := { e.payload with ciphertext := [] } }

/-- The envelope with nothing in its keys. -/
def Envelope.garbled (e : Envelope) : Envelope :=
  { e with keys := e.keys.map fun k =>
      { k with transport := { k.transport with
          message := { k.transport.message with ciphertext := [] } } } }

namespace Scene

/-- A device that has published its bundle with a one-time pre-key, and the first message to it from
another device. -/
def contact? : Option (Scene × Envelope) := do
  let settings := { Settings.standard with minOneTimePreKeys := 0, maxOneTimePreKeys := 1 }
  let alice ← joining? ⟨"alice", 1⟩ settings .empty .counting
  let home := alice.run [.publishBundle]
  let bob ← joining? ⟨"bob", 1⟩ settings home.directory home.entropy
  let away := bob.run [.decideTrust ⟨"alice", 1⟩ .trusted]
  match Messenger.encryptFor ["alice"] [1, 2, 3] ∅ away with
  | .ok encryption _ => some (home, encryption.envelope)
  | .error _ _ => none

/-- An envelope whose keys were garbled on its way changes nothing but the randomness used. -/
theorem garbled_contact :
    ∃ s envelope, contact? = some (s, envelope) ∧
      ∃ e, Messenger.decrypt ⟨"bob", 1⟩ envelope.garbled s =
        (.failed .messageNotAuthentic, { s with entropy := e }) := by
  have hcontact : contact?.any fun p =>
      (Messenger.decrypt ⟨"bob", 1⟩ p.2.garbled p.1).1 = .failed .messageNotAuthentic := by
    decide +kernel
  obtain ⟨⟨s, envelope⟩, hsome, hp⟩ := (Option.any_eq_true _ _).mp hcontact
  have hfailed := of_decide_eq_true hp
  rcases Messenger.of_decrypt_unread (Prod.ext hfailed rfl) nofun with ⟨e, -, he⟩ | ⟨hspoiled, -⟩
  · exact ⟨s, envelope, hsome, e, Prod.ext hfailed he⟩
  · cases hspoiled

/-- An envelope whose payload was spoiled on its way starts a session, uses up the one-time pre-key
and makes the bundle out of date. The genuine one, which could have been read, cannot any more. -/
theorem spoiled_contact :
    ∃ s envelope, contact? = some (s, envelope) ∧
      ∃ t, Messenger.decrypt ⟨"bob", 1⟩ envelope.spoiled s = (.failed .payloadNotAuthentic, t) ∧
        s.messenger.store.containsSession ⟨"bob", 1⟩ = false ∧
        t.messenger.store.containsSession ⟨"bob", 1⟩ = true ∧
        s.messenger.store.oneTimePreKeys.count = 1 ∧ t.messenger.store.oneTimePreKeys.count = 0 ∧
        s.messenger.needsPublishing = false ∧ t.messenger.needsPublishing = true ∧
        (∃ message, (Messenger.decrypt ⟨"bob", 1⟩ envelope s).1 = .decrypted message) ∧
        (Messenger.decrypt ⟨"bob", 1⟩ envelope t).1 = .failed .duplicateMessage := by
  have hcontact : contact?.any fun p =>
      let t := (Messenger.decrypt ⟨"bob", 1⟩ p.2.spoiled p.1).2
      (Messenger.decrypt ⟨"bob", 1⟩ p.2.spoiled p.1).1 = .failed .payloadNotAuthentic ∧
        p.1.messenger.store.containsSession ⟨"bob", 1⟩ = false ∧
        t.messenger.store.containsSession ⟨"bob", 1⟩ = true ∧
        p.1.messenger.store.oneTimePreKeys.count = 1 ∧
        t.messenger.store.oneTimePreKeys.count = 0 ∧
        p.1.messenger.needsPublishing = false ∧ t.messenger.needsPublishing = true ∧
        (Messenger.decrypt ⟨"bob", 1⟩ p.2 p.1).1.result.toOption.isSome ∧
        (Messenger.decrypt ⟨"bob", 1⟩ p.2 t).1 = .failed .duplicateMessage := by
    decide +kernel
  obtain ⟨⟨s, envelope⟩, hsome, hp⟩ := (Option.any_eq_true _ _).mp hcontact
  obtain ⟨hfailed, hsession, hsession', hpool, hpool', hneeds, hneeds', hread, hlost⟩ :=
    of_decide_eq_true hp
  obtain ⟨message, hmessage⟩ := Option.isSome_iff_exists.mp hread
  exact ⟨s, envelope, hsome, _, Prod.ext hfailed rfl, hsession, hsession', hpool, hpool', hneeds,
    hneeds', ⟨message, Decryption.eq_of_result_eq_some hmessage⟩, hlost⟩

end Scene

end Spoiled

end MultiDevice
