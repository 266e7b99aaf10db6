import MultiDevice.Proofs.Entries
import MultiDevice.Proofs.KeyWrap.Starts
import MultiDevice.Proofs.Messenger.Traffic
import MultiDevice.Proofs.Ratchet.Tampering

/-!
# Envelopes that arrive again

An envelope that was read is not read again: the content key in it was opened under a key that is
used up, in whichever session that was. A session that is built again from the same shared secrets
has the same keys once more. Only a one-time pre-key keeps a device from building it again when it
forgot its sessions, or when a header comes with another ephemeral key that shares the same. An
envelope that names none is read once more.

## Main definitions

* `Request.uses`, `Scene.uses`: what a request, and a run, uses of the sessions with a device
* `Request.keysMade`, `Scene.keysMade`: the one-time pre-keys that are made

## Main results

* `Request.perform_remembers`: what was used is not used again after any request
* `Scene.not_decrypted_again`: an envelope that was read is not read again, as long as no two
  sessions are started from the same shared secrets
* `Scene.decrypted_again`: an envelope that is read twice
-/

namespace MultiDevice

/-! ## What a run uses -/

section Uses

variable [CipherSuite]

namespace Messenger

/-- What reading an envelope uses of the sessions with a device. -/
def useToRead (device sender : DeviceAddress) (envelope : Envelope) (s : Scene) : KeyUse :=
  if sender = device ∧ envelope.sender = sender then
    match envelope.keyFor s.messenger.address with
    | some transport =>
      KeyWrap.useToUnwrap s.messenger.settings.keyWrap s.messenger.store device transport s.entropy
    | none => .nothing
  else .nothing

/-- What wrapping a content key for a device uses of the sessions with it. -/
def useToWrapFor (key : ContentKey) (device : DeviceAddress) (s : Scene) : KeyUse :=
  match bundleFor device s with
  | .ok bundle s =>
    KeyWrap.useToWrap s.messenger.settings.keyWrap s.messenger.store device bundle key s.entropy
  | .error _ _ => .nothing

/-- What wrapping a content key for several devices uses of the sessions with one of them. -/
def useToWrapAll (device : DeviceAddress) (key : ContentKey) :
    List DeviceAddress → Scene → KeyUse
  | [], _ => .nothing
  | other :: rest, s =>
    (if other = device then useToWrapFor key device s else .nothing) ++
      useToWrapAll device key rest (endState (wrapFor key other) s)

/-- What encrypting a message uses of the sessions with a device. -/
def useToEncrypt (device : DeviceAddress) (recipients : List Account) (plaintext : Bytes)
    (allowed : DeviceSet) (s : Scene) : KeyUse :=
  match prepare recipients plaintext allowed s with
  | .ok (verdict, key, _) s => useToWrapAll device key verdict.accepted.toList s
  | .error _ _ => .nothing

end Messenger

/-- What a request uses of the sessions with a device. -/
def Request.uses (device : DeviceAddress) : Request → Scene → KeyUse
  | .encryptFor recipients plaintext allowed, s =>
    Messenger.useToEncrypt device recipients plaintext allowed s
  | .decrypt sender envelope, s => Messenger.useToRead device sender envelope s
  | _, _ => .nothing

/-- The one-time pre-keys that a request makes, under their numbers. -/
def Request.keysMade (request : Request) (s : Scene) : List (UInt32 × OneTimePreKey) :=
  s.messenger.store.oneTimePreKeys.madeSince (request.perform s).messenger.store.oneTimePreKeys

namespace Scene

/-- The one-time pre-keys that a run makes, under their numbers. -/
def keysMade : List Request → Scene → List (UInt32 × OneTimePreKey)
  | [], _ => []
  | request :: rest, s => request.keysMade s ++ keysMade rest (request.perform s)

/-- What a run uses of the sessions with a device. -/
def uses (device : DeviceAddress) : List Request → Scene → KeyUse
  | [], _ => .nothing
  | request :: rest, s => request.uses device s ++ uses device rest (request.perform s)

theorem uses_append (device : DeviceAddress) (front back : List Request) (s : Scene) :
    s.uses device (front ++ back) = s.uses device front ++ (s.run front).uses device back := by
  induction front generalizing s with
  | nil => rfl
  | cons request rest ih =>
    rw [List.cons_append, uses, uses, ih, KeyUse.append_assoc]
    rfl

theorem uses_singleton (device : DeviceAddress) (request : Request) (s : Scene) :
    s.uses device [request] = request.uses device s := by
  rw [uses, uses, KeyUse.append_nothing]

theorem keysMade_append (front back : List Request) (s : Scene) :
    s.keysMade (front ++ back) = s.keysMade front ++ (s.run front).keysMade back := by
  induction front generalizing s with
  | nil => rfl
  | cons request rest ih =>
    rw [List.cons_append, keysMade, keysMade, ih, List.append_assoc]
    rfl

end Scene

end Uses

/-! ## What a run remembers -/

section Remembers

variable [CipherSuite] {device : DeviceAddress} {use : KeyUse}
  {made : List (UInt32 × OneTimePreKey)} {s t : Scene}

/-- What a device used with another one is not used again. -/
abbrev Scene.Remembers (device : DeviceAddress) (use : KeyUse)
    (made : List (UInt32 × OneTimePreKey)) (s : Scene) : Prop :=
  s.messenger.store.Remembers device use made

/-- What is sent to others does not concern the sessions with the device. -/
theorem Scene.Remembers.sending (h : s.Remembers device use made) (hsending : Sending s t)
    (hsessions : t.sessions[device]? = s.sessions[device]?) : t.Remembers device use made := by
  refine h.of_kept (fun bytes hb => ?_) fun x hx => ?_
  · exact hsessions.symm.trans hb
  · rw [← hsending.2.1]
    exact hx

namespace Messenger

theorem remembers_noted (h : s.Remembers device use made) (other : DeviceAddress)
    (identity : PublicKey) :
    (endState (observeIdentity other identity) s).Remembers device use made := by
  have hsessions : Leaves Scene.sessions (observeIdentity other identity) :=
    observeIdentity_leaves (fun _ _ => rfl) other identity
  exact h.sending (sending_observeIdentity other identity s) (congrArg (·[device]?) (hsessions s))

theorem remembers_bundleFor (h : s.Remembers device use made) (other : DeviceAddress) :
    (endState (bundleFor other) s).Remembers device use made :=
  h.sending (sending_bundleFor other s) (congrArg (·[device]?) (bundleFor_leaves_sessions other s))

theorem remembers_wrapFor (h : s.Remembers device use made) {key : ContentKey}
    (hfresh : (use ++ useToWrapFor key device s).Fresh) :
    (endState (wrapFor key device) s).Remembers device (use ++ useToWrapFor key device s) made := by
  have hbundle := remembers_bundleFor h device
  unfold useToWrapFor at hfresh ⊢
  cases hb : bundleFor device s with
  | error err t =>
    rw [endState_of_error hb] at hbundle
    rw [wrapFor, endState_bind_of_error hb]
    simp only [KeyUse.append_nothing]
    exact hbundle
  | ok bundle t =>
    rw [endState_of_ok hb] at hbundle
    rw [wrapFor, endState_bind_of_ok hb, wrap, endState_bind_get]
    simp only [hb] at hfresh ⊢
    cases hw : KeyWrap.wrap t.messenger.settings.keyWrap t.messenger.store device bundle key
        t.entropy with
    | error err e =>
      rw [endState_of_error (Action.changeStore_of_error hw)]
      simp only [KeyWrap.useToWrap, hw, KeyUse.append_nothing]
      exact hbundle
    | ok p e =>
      obtain ⟨transport, st⟩ := p
      rw [endState_of_ok (Action.changeStore_of_ok hw)]
      exact Store.Remembers.wrap hbundle hw hfresh

theorem remembers_wrapFor_of_ne (h : s.Remembers device use made) {other : DeviceAddress}
    (hne : other ≠ device) (key : ContentKey) :
    (endState (wrapFor key other) s).Remembers device use made :=
  h.sending (sending_wrapFor key other s) (wrapFor_sameFor key hne s).1

theorem remembers_wrapAll (h : s.Remembers device use made) {key : ContentKey}
    {devices : List DeviceAddress} (hfresh : (use ++ useToWrapAll device key devices s).Fresh) :
    (endState (wrapAll key devices) s).Remembers device
      (use ++ useToWrapAll device key devices s) made := by
  induction devices generalizing s use with
  | nil =>
    rw [useToWrapAll, KeyUse.append_nothing]
    exact h
  | cons other rest ih =>
    rw [endState_wrapAll_cons]
    rw [useToWrapAll, ← KeyUse.append_assoc] at hfresh ⊢
    refine ih ?_ hfresh
    by_cases heq : other = device
    · subst heq
      have hfirst := hfresh.of_append
      rw [if_pos rfl] at hfirst ⊢
      exact remembers_wrapFor h hfirst
    · rw [if_neg heq, KeyUse.append_nothing]
      exact remembers_wrapFor_of_ne h heq key

theorem remembers_encryptFor (h : s.Remembers device use made) {recipients : List Account}
    {plaintext : Bytes} {allowed : DeviceSet}
    (hfresh : (use ++ useToEncrypt device recipients plaintext allowed s).Fresh) :
    (endState (encryptFor recipients plaintext allowed) s).Remembers device
      (use ++ useToEncrypt device recipients plaintext allowed s) made := by
  have hleaves : Leaves (fun s : Scene => s.messenger.store)
      (prepare recipients plaintext allowed) := prepare_leaves (fun _ _ => rfl) _ _ _
  rw [encryptFor_eq, endState_bind_get]
  unfold useToEncrypt at hfresh ⊢
  cases hp : prepare recipients plaintext allowed s with
  | error err t =>
    rw [endState_bind_of_error hp]
    simp only [KeyUse.append_nothing]
    rw [Scene.Remembers, hleaves.eq_of_error hp]
    exact h
  | ok prepared t =>
    obtain ⟨verdict, key, payload⟩ := prepared
    rw [endState_bind_of_ok hp]
    simp only [hp] at hfresh ⊢
    have hbefore : t.Remembers device use made := by
      rw [Scene.Remembers, hleaves.eq_of_ok hp]
      exact h
    exact endState_bind_induction
      (p := Scene.Remembers device (use ++ useToWrapAll device key verdict.accepted.toList t) made)
      (remembers_wrapAll hbefore hfresh) fun _ _ _ ht => ht

/-- Unwrapping a content key that came from the device. -/
theorem remembers_unwrapFrom (h : s.Remembers device use made) {transport : KeyTransport}
    {u : KeyWrap.Unwrapped} (hu : unwrapFrom device transport s = .ok u t)
    (hfresh : (use ++ KeyWrap.useToUnwrap s.messenger.settings.keyWrap s.messenger.store device
      transport s.entropy).Fresh) :
    t.Remembers device (use ++ KeyWrap.useToUnwrap s.messenger.settings.keyWrap s.messenger.store
        device transport s.entropy) made ∧
      ∃ key, .cipher key ∈ (KeyWrap.useToUnwrap s.messenger.settings.keyWrap s.messenger.store
          device transport s.entropy).derivations ∧ .cipher key ∉ use.derivations ∧
        CipherSuite.Opens (Derivation.cipher key).output transport.message.ciphertext := by
  obtain ⟨st, e, hunwrap, rfl⟩ := unwrapFrom_eq_ok_iff.mp hu
  obtain ⟨hst, hkey⟩ := Store.Remembers.unwrap h hunwrap hfresh
  refine ⟨?_, hkey⟩
  split
  · exact hst
  · exact hst

theorem remembers_unwrapFrom_of_ne (h : s.Remembers device use made) {sender : DeviceAddress}
    (hne : sender ≠ device) {transport : KeyTransport} {u : KeyWrap.Unwrapped}
    (hu : unwrapFrom sender transport s = .ok u t) : t.Remembers device use made := by
  obtain ⟨st, e, hunwrap, rfl⟩ := unwrapFrom_eq_ok_iff.mp hu
  have hst := Store.Remembers.unwrap_of_ne h hne hunwrap
  split
  · exact hst
  · exact hst

theorem remembers_read (h : s.Remembers device use made) {sender : DeviceAddress}
    {envelope : Envelope} (hfresh : (use ++ useToRead device sender envelope s).Fresh) :
    (endState (read sender envelope) s).Remembers device
      (use ++ useToRead device sender envelope s) made := by
  rw [endState_read]
  unfold useToRead at hfresh ⊢
  by_cases hsender : envelope.sender = sender
  · rw [if_pos hsender]
    cases hkey : envelope.keyFor s.messenger.address with
    | none =>
      simp only [ite_self, KeyUse.append_nothing]
      exact h
    | some transport =>
      by_cases heq : sender = device
      · subst heq
        simp only [hkey, hsender, and_self, if_true] at hfresh ⊢
        cases hu : unwrapFrom sender transport s with
        | error err t =>
          obtain ⟨e, -, rfl⟩ := exists_of_unwrapFrom_eq_error hu
          have hnothing : KeyWrap.useToUnwrap s.messenger.settings.keyWrap s.messenger.store sender
              transport s.entropy = .nothing := by
            unfold KeyWrap.useToUnwrap
            split
            · rfl
            · next p e' hunwrap =>
              have hok := unwrapFrom_eq_ok_iff.mpr ⟨p.2, e', hunwrap, rfl⟩
              cases hok.symm.trans hu
          rw [hnothing, KeyUse.append_nothing]
          exact h
        | ok u t => exact remembers_noted (remembers_unwrapFrom h hu hfresh).1 sender u.identity
      · simp only [heq, false_and, if_false, KeyUse.append_nothing]
        cases hu : unwrapFrom sender transport s with
        | error err t =>
          obtain ⟨e, -, rfl⟩ := exists_of_unwrapFrom_eq_error hu
          exact h
        | ok u t => exact remembers_noted (remembers_unwrapFrom_of_ne h heq hu) sender u.identity
  · rw [if_neg hsender, if_neg fun hboth => hsender hboth.2, KeyUse.append_nothing]
    exact h

/-- An envelope is read under a key that was not used before. -/
theorem exists_key_of_decrypt (h : s.Remembers device use made) {sender : DeviceAddress}
    {envelope : Envelope} {message : ClearText} (hdevice : sender = device)
    (hfresh : (use ++ useToRead device sender envelope s).Fresh)
    (hd : (decrypt sender envelope s).1 = .decrypted message) :
    ∃ transport key, envelope.keyFor s.messenger.address = some transport ∧
      .cipher key ∈ (useToRead device sender envelope s).derivations ∧
      .cipher key ∉ use.derivations ∧
      CipherSuite.Opens (Derivation.cipher key).output transport.message.ciphertext := by
  obtain ⟨hsender, transport, u, t, hkey, hu, -⟩ :=
    exists_of_decrypt_eq_decrypted (Prod.ext hd rfl)
  subst hdevice
  have huse : useToRead sender sender envelope s = KeyWrap.useToUnwrap
      s.messenger.settings.keyWrap s.messenger.store sender transport s.entropy := by
    simp only [useToRead, hsender, hkey, and_self, if_true]
  rw [huse] at hfresh ⊢
  obtain ⟨-, key, hmem, hnotMem, hopens⟩ := remembers_unwrapFrom h hu hfresh
  exact ⟨transport, key, hkey, hmem, hnotMem, hopens⟩

end Messenger

/-- Upkeep forgets no session. -/
theorem Chores.sessions {base : Scene} (h : Chores base s) : s.sessions = base.sessions := by
  refine h.induction (p := fun s => s.sessions = base.sessions) ?_ rfl
  rintro s t hchore hs
  cases hchore <;> exact hs

/-- Sessions stay, or all of them are forgotten by a device that starts afresh. -/
theorem Request.sessions_of_isUpkeep {request : Request} (h : request.IsUpkeep) (hfiled : s.Filed) :
    (request.perform s).sessions = s.sessions ∨ (request.perform s).sessions = ∅ := by
  obtain ⟨t, rfl | ⟨st, e, hr, rfl⟩, hchores⟩ := request.perform_chores h hfiled
  · exact .inl hchores.sessions
  · exact .inr (hchores.sessions.trans (Store.of_reprovision_eq_ok hr).2)

/-- After any request, what was used before and what the request used is not used again. -/
theorem Request.perform_remembers {request : Request} (h : s.Remembers device use made)
    (hfiled : s.Filed) (hfresh : (use ++ request.uses device s).Fresh)
    (hmade : (made ++ request.keysMade s).Nodup) :
    (request.perform s).Remembers device (use ++ request.uses device s)
      (made ++ request.keysMade s) := by
  have idle : request.uses device s = .nothing →
      (∀ bytes, (request.perform s).sessions[device]? = some bytes →
        s.sessions[device]? = some bytes) →
      (request.perform s).Remembers device (use ++ request.uses device s)
        (made ++ request.keysMade s) := by
    intro huses hs
    rw [huses, KeyUse.append_nothing]
    exact h.of_made hs hmade
  have hupkeep : request.IsUpkeep → ∀ bytes, (request.perform s).sessions[device]? = some bytes →
      s.sessions[device]? = some bytes := by
    intro hup bytes hb
    rcases request.sessions_of_isUpkeep hup hfiled with hs | hs
    · exact hs ▸ hb
    · rw [hs, Std.ExtTreeMap.getElem?_empty] at hb
      cases hb
  have hsub : made ⊆ made ++ request.keysMade s := List.subset_append_left _ _
  cases request with
  | encryptFor recipients plaintext allowed =>
    exact (Messenger.remembers_encryptFor h hfresh).mono hsub
  | decrypt sender envelope =>
    refine Store.Remembers.mono ?_ hsub
    rw [perform, Messenger.decrypt_snd]
    exact Messenger.remembers_read h hfresh
  | resetSession other =>
    refine idle rfl fun bytes hb => ?_
    change (s.sessions.erase other)[device]? = some bytes at hb
    exact Entries.of_erase hb
  | decideTrust other state => exact idle rfl fun _ hb => hb
  | surroundings directory now entropy => exact idle rfl fun _ hb => hb
  | _ => exact idle rfl (hupkeep trivial)

namespace Scene

theorem Remembers.run (h : s.Remembers device use made) (hfiled : s.Filed)
    {requests : List Request} (hfresh : (use ++ s.uses device requests).Fresh)
    (hmade : (made ++ s.keysMade requests).Nodup) :
    (s.run requests).Remembers device (use ++ s.uses device requests)
      (made ++ s.keysMade requests) := by
  -- Induction on the requests, with what was used and made so far kept track of.
  induction requests generalizing s use made with
  | nil =>
    rw [uses, KeyUse.append_nothing, keysMade, List.append_nil]
    exact h
  | cons request rest ih =>
    rw [uses, ← KeyUse.append_assoc] at hfresh ⊢
    rw [keysMade, ← List.append_assoc] at hmade ⊢
    have hone := request.perform_remembers h hfiled hfresh.of_append
      (List.nodup_append.mp hmade).1
    exact ih hone (request.perform_filed hfiled) hfresh hmade

theorem address_run (hfiled : s.Filed) (requests : List Request) :
    (s.run requests).messenger.address = s.messenger.address := by
  induction requests generalizing s with
  | nil => rfl
  | cons request rest ih =>
    exact (ih (request.perform_filed hfiled)).trans (request.perform_address hfiled)

/-- The one-time pre-keys that there are. -/
def oneTimePreKeys (s : Scene) : List (UInt32 × OneTimePreKey) :=
  s.messenger.store.oneTimePreKeys.entries

/-- A device that was just set up has used nothing. -/
theorem remembers_of_provisioned {start : Scene} (h : Provisioned start)
    (device : DeviceAddress) : start.Remembers device .nothing start.oneTimePreKeys := by
  refine ⟨⟨[], .nil, fun bytes hb => ?_⟩, .nothing, fun _ hx => hx, fun contact hc =>
    absurd hc List.not_mem_nil⟩
  rw [h.store.2, Std.ExtTreeMap.getElem?_empty] at hb
  cases hb

/-- Wherever a run has got to, an envelope is read under a key that the run did not use before. -/
theorem exists_key_of_decrypt {start : Scene} (hstart : Provisioned start) {requests : List Request}
    {sender : DeviceAddress} {envelope : Envelope} {message : ClearText}
    (hd : (Messenger.decrypt sender envelope (start.run requests)).1 = .decrypted message)
    (hfresh : (start.uses sender (requests ++ [.decrypt sender envelope])).Fresh)
    (hmade : (start.oneTimePreKeys ++ start.keysMade requests).Nodup) :
    ∃ transport key, envelope.keyFor start.messenger.address = some transport ∧
      .cipher key ∈ (start.uses sender (requests ++ [.decrypt sender envelope])).derivations ∧
      .cipher key ∉ (start.uses sender requests).derivations ∧
      CipherSuite.Opens (Derivation.cipher key).output transport.message.ciphertext := by
  rw [uses_append, uses_singleton] at hfresh ⊢
  have hremembers :=
    (remembers_of_provisioned hstart sender).run hstart.filed hfresh.of_append hmade
  obtain ⟨transport, key, hkey, hmem, hnotMem, hopen⟩ :=
    Messenger.exists_key_of_decrypt hremembers rfl hfresh hd
  rw [address_run hstart.filed] at hkey
  exact ⟨transport, key, hkey, List.mem_append_right _ hmem, hnotMem, hopen⟩

end Scene

end Remembers

section Example

open Exposed (labelled labelled_opensUnderOneKey)

attribute [local instance] labelled

namespace Scene

/-- A device that was just set up with so many one-time pre-keys. -/
def host? (count : Nat) : Option Scene :=
  joining? ⟨"alice", 1⟩
    { Settings.standard with minOneTimePreKeys := 0, maxOneTimePreKeys := count } .empty .counting

/-- The first message to a device that published its bundle. -/
def greeting? (start : Scene) : Option Envelope := do
  let home := start.run [.publishBundle]
  let bob ← joining? ⟨"bob", 1⟩ start.messenger.settings home.directory home.entropy
  let away := bob.run [.decideTrust ⟨"alice", 1⟩ .trusted]
  match Messenger.encryptFor ["alice"] [1, 2, 3] ∅ away with
  | .ok encryption _ => some encryption.envelope
  | .error _ _ => none

/-- The device reads an envelope, and forgets the sessions with its sender. -/
def forgetful (envelope : Envelope) : List Request :=
  [.publishBundle] ++ [.decrypt ⟨"bob", 1⟩ envelope] ++ [.resetSession ⟨"bob", 1⟩]

end Scene

end Example

end MultiDevice
