import MultiDevice.Proofs.Messenger.Outcome
import MultiDevice.Proofs.Resolve

/-!
# Every device is accounted for

An encryption answers for each device that the message is meant for: there is a key for it, or it is
reported as failed or as untrusted. What concerns a single device does not stop the others. What
stops the whole encryption does so before anything is done for a device, so nothing but randomness
is used then.

## Main definitions

* `Scene.Reaches`: a device that a message to some accounts is meant for
* `TrustTable.rejected`: the devices whose trust has to be decided first
* `Encryption.devices`: the devices that an encryption answers for

## Main results

* `Messenger.mem_of_resolveOthers`: the devices that a message goes to
* `Messenger.devices_of_encryptFor`: what an encryption that succeeds answers for
* `Messenger.exists_of_encryptFor_eq_error`: what an encryption that fails leaves
* `Messenger.accounted`: all of this together
-/

namespace MultiDevice

/-! ## What a message is meant for -/

/-- A device that a message to some accounts is meant for: it is on the list of one of them, or of
the own account if messages also go there, with an entry that counts, and it is not the sender. -/
def Scene.Reaches (s : Scene) (recipients : List Account) (device : DeviceAddress) : Prop :=
  device ≠ s.messenger.address ∧
    (device.account ∈ recipients ∨
      s.messenger.settings.selfSync ∧ device.account = s.messenger.address.account) ∧
    s.directory.HasCurrent s.messenger.settings.staleness s.now device

namespace Messenger

variable {s t : Scene} {recipients : List Account} {allowed devices : DeviceSet}

/-- A message is looked up for its recipients, and for the own account if messages also go there. -/
theorem mem_audience {m : Messenger} {account : Account} :
    account ∈ m.audience recipients ↔
      account ∈ recipients ∨ m.settings.selfSync ∧ account = m.address.account := by
  unfold audience
  cases hself : m.settings.selfSync with
  | true =>
    rw [if_pos rfl, mem_insert_iff, Std.ExtTreeSet.mem_ofList, List.contains_iff_mem]
    simp [or_comm]
  | false =>
    rw [if_neg Bool.false_ne_true, Std.ExtTreeSet.mem_ofList, List.contains_iff_mem]
    simp

/-- The devices that a message goes to are those that it is meant for. -/
theorem mem_of_resolveOthers (h : resolveOthers s recipients = .ok devices)
    {device : DeviceAddress} : device ∈ devices ↔ s.Reaches recipients device := by
  unfold resolveOthers at h
  cases hr : resolve s s.messenger.settings.resolveTimeout (s.messenger.audience recipients) with
  | error err =>
    rw [hr] at h
    cases h
  | ok found =>
    rw [hr] at h
    cases h
    rw [Std.ExtTreeSet.mem_erase, Ne, Std.LawfulEqCmp.compare_eq_iff_eq, eq_comm,
      Directory.mem_of_resolve hr, mem_audience]
    rfl

theorem area?_of_resolveOthers {err : Error} (h : resolveOthers s recipients = .error err) :
    err.area? = some .resolution := by
  unfold resolveOthers at h
  cases hr : resolve s s.messenger.settings.resolveTimeout (s.messenger.audience recipients) with
  | error err' =>
    rw [hr] at h
    cases h
    exact Directory.area?_of_resolve hr
  | ok found =>
    rw [hr] at h
    cases h

end Messenger

/-! ## The gate -/

namespace TrustTable

variable {t : TrustTable} {allowed devices : DeviceSet}

/-- The undecided devices of a set that are not allowed. -/
def rejected (t : TrustTable) (devices allowed : DeviceSet) : DeviceSet :=
  devices.filter fun device => t.check device = .undecided ∧ device ∉ allowed

theorem mem_rejected {device : DeviceAddress} :
    device ∈ t.rejected devices allowed ↔
      device ∈ devices ∧ t.check device = .undecided ∧ device ∉ allowed := by
  refine DeviceSet.mem_filter.trans ?_
  rw [decide_eq_true_iff]

/-- The devices that a message may go to, and those it must not go to, if no device stands in the
way. -/
def verdict (t : TrustTable) (devices : DeviceSet) : TrustVerdict :=
  { accepted := devices.filter fun device => t.check device ≠ .untrusted
    untrusted := t.inState .untrusted devices }

theorem mem_accepted {device : DeviceAddress} :
    device ∈ (t.verdict devices).accepted ↔ device ∈ devices ∧ t.check device ≠ .untrusted := by
  refine DeviceSet.mem_filter.trans ?_
  rw [decide_eq_true_iff]

theorem mem_untrusted {device : DeviceAddress} :
    device ∈ (t.verdict devices).untrusted ↔ device ∈ devices ∧ t.check device = .untrusted := by
  refine DeviceSet.mem_filter.trans ?_
  rw [decide_eq_true_iff]

/-- The gate lets a message pass unless devices are rejected. -/
theorem require_eq (t : TrustTable) (devices allowed : DeviceSet) :
    t.require devices allowed =
      if t.rejected devices allowed = ∅ then .ok (t.verdict devices)
      else .error (.undecidedTrust (t.rejected devices allowed)) := by
  have hrejected : (t.inState .undecided devices).filter (fun device => device ∉ allowed) =
      t.rejected devices allowed := by
    apply Std.ExtTreeSet.ext_mem
    intro device
    simp only [inState, rejected, DeviceSet.mem_filter, decide_eq_true_iff, and_assoc]
  unfold require
  dsimp only
  rw [hrejected]
  by_cases hnone : t.rejected devices allowed = ∅
  · rw [if_pos hnone, if_pos (Std.ExtTreeSet.isEmpty_iff.mpr hnone)]
    rfl
  · rw [if_neg hnone, if_neg fun h => hnone (Std.ExtTreeSet.isEmpty_iff.mp h)]

end TrustTable

/-! ## Encryptions that succeed -/

/-- Making a content key fails for lack of randomness. -/
theorem ContentKey.eq_of_generate_error {e e' : Entropy} {err : Error}
    (h : generate e = .error err e') : err = .noRandomness := by
  rcases bind_eq_error_iff.mp h with hblock | ⟨secret, t, -, hpure⟩
  · exact Entropy.eq_of_block_error hblock
  · cases hpure

/-- Encrypting a body fails for lack of randomness. -/
theorem ContentKey.eq_of_encrypt_error [CipherSuite] {key : ContentKey} {plaintext : Bytes}
    {sender : DeviceAddress} {e e' : Entropy} {err : Error}
    (h : key.encrypt plaintext sender e = .error err e') : err = .noRandomness := by
  rcases bind_eq_error_iff.mp h with hblock | ⟨nonce, t, -, hpure⟩
  · exact Entropy.eq_of_block_error hblock
  · cases hpure

/-- The devices that an encryption answers for: those that there is a key for, those that it failed
for, and the untrusted ones. -/
def Encryption.devices (e : Encryption) : List DeviceAddress :=
  e.envelope.recipients ++ e.failures.map (·.device) ++ e.untrusted.toList

namespace Messenger

variable [CipherSuite] {s t : Scene} {recipients : List Account} {plaintext : Bytes}
  {allowed : DeviceSet}

/-- For each of several devices a key is wrapped, or a failure is reported. -/
theorem perm_of_wrapAll {key : ContentKey} {devices : List DeviceAddress}
    {keys : List RecipientKey} {failures : List DeviceFailure}
    (h : wrapAll key devices s = .ok (keys, failures) t) :
    (keys.map (·.recipient) ++ failures.map (·.device)).Perm devices := by
  -- Induction on the devices, from any scene: each one changes what the next one starts with.
  induction devices generalizing s keys failures with
  | nil =>
    cases h
    exact .nil
  | cons device rest ih =>
    cases hw : wrapFor key device s with
    | ok transport u =>
      rw [wrapAll_cons_of_ok rest hw] at h
      obtain ⟨⟨keys', failures'⟩, hrest, hk⟩ := map_eq_ok_iff.mp h
      cases hk
      exact (ih hrest).cons device
    | error err u =>
      rw [wrapAll_cons_of_error rest hw] at h
      obtain ⟨⟨keys', failures'⟩, hrest, hk⟩ := map_eq_ok_iff.mp h
      cases hk
      exact List.perm_middle.trans ((ih hrest).cons device)

/-- An encryption that succeeds answers for each device that it goes to, and only once. -/
theorem devices_of_encryptFor {encryption : Encryption}
    (h : encryptFor recipients plaintext allowed s = .ok encryption t) :
    ∃ devices, resolveOthers s recipients = .ok devices ∧ encryption.devices.Nodup ∧
      (∀ device, device ∈ encryption.devices ↔ device ∈ devices) ∧
      encryption.untrusted = (s.messenger.store.trust.verdict devices).untrusted := by
  obtain ⟨verdict, key, payload, u, keys, failures, hprepare, hwrap, rfl⟩ :=
    exists_of_encryptFor_eq_ok h
  obtain ⟨devices, hresolve, hrequire⟩ := exists_of_prepare_eq_ok hprepare
  rw [TrustTable.require_eq] at hrequire
  split at hrequire
  · cases hrequire
    have hperm := perm_of_wrapAll hwrap
    have haccepted : ∀ device, device ∈ keys.map (·.recipient) ++ failures.map (·.device) ↔
        device ∈ devices ∧ s.messenger.store.trust.check device ≠ .untrusted := by
      intro device
      rw [hperm.mem_iff, Std.ExtTreeSet.mem_toList, TrustTable.mem_accepted]
    have huntrusted : ∀ device,
        device ∈ (s.messenger.store.trust.verdict devices).untrusted.toList ↔
          device ∈ devices ∧ s.messenger.store.trust.check device = .untrusted := by
      intro device
      rw [Std.ExtTreeSet.mem_toList, TrustTable.mem_untrusted]
    refine ⟨devices, hresolve, ?_, ?_, rfl⟩
    · refine List.nodup_append.mpr ⟨?_, DeviceSet.nodup_toList _, ?_⟩
      · exact hperm.nodup_iff.mpr (DeviceSet.nodup_toList _)
      · rintro device hleft _ hright rfl
        exact ((haccepted device).mp hleft).2 ((huntrusted device).mp hright).2
    · intro device
      refine List.mem_append.trans ((or_congr (haccepted device) (huntrusted device)).trans ?_)
      rw [← and_or_left, and_iff_left (ne_or_eq _ _)]
  · cases hrequire

/-! ## Encryptions that fail -/

/-- An encryption is refused when devices stand in its way, and then nothing at all is done. -/
theorem encryptFor_of_rejected {devices : DeviceSet}
    (hresolve : resolveOthers s recipients = .ok devices)
    (hrejected : s.messenger.store.trust.rejected devices allowed ≠ ∅) :
    encryptFor recipients plaintext allowed s =
      .error (.undecidedTrust (s.messenger.store.trust.rejected devices allowed)) s := by
  have hrequire : s.messenger.store.trust.require devices allowed =
      .error (.undecidedTrust (s.messenger.store.trust.rejected devices allowed)) := by
    rw [TrustTable.require_eq, if_neg hrejected]
  have hfound : Action.ofExcept (resolveOthers s recipients) s = .ok devices s := by
    rw [hresolve]
    rfl
  have hstops : Action.ofExcept (s.messenger.store.trust.require devices allowed) s =
      .error (.undecidedTrust (s.messenger.store.trust.rejected devices allowed)) s := by
    rw [hrequire]
    rfl
  rw [encryptFor, bind_get, bind_of_ok hfound]
  exact bind_of_error hstops

/-- An encryption that fails uses randomness and changes nothing else. -/
theorem exists_of_encryptFor_eq_error {err : Error}
    (h : encryptFor recipients plaintext allowed s = .error err t) :
    ∃ e, t = { s with entropy := e } := by
  have hprepare := prepare_of_encryptFor_eq_error h
  have hleaves : Leaves (fun u : Scene => (u.messenger, u.directory, u.now))
      (prepare recipients plaintext allowed) := prepare_leaves (fun _ _ => rfl) _ _ _
  obtain ⟨hmessenger, hrest⟩ := Prod.mk.inj (hleaves.eq_of_error hprepare)
  obtain ⟨hdirectory, hnow⟩ := Prod.mk.inj hrest
  refine ⟨t.entropy, ?_⟩
  rw [← hmessenger, ← hdirectory, ← hnow]

/-- An encryption fails because of a lookup, because of devices that are rejected, or for lack of
randomness. -/
theorem cases_of_encryptFor_eq_error {err : Error}
    (h : encryptFor recipients plaintext allowed s = .error err t) :
    resolveOthers s recipients = .error err ∨
      (∃ devices, resolveOthers s recipients = .ok devices ∧
        s.messenger.store.trust.rejected devices allowed ≠ ∅ ∧
        err = .undecidedTrust (s.messenger.store.trust.rejected devices allowed)) ∨
      err = .noRandomness := by
  have hprepare := prepare_of_encryptFor_eq_error h
  rw [prepare, bind_get] at hprepare
  rcases bind_eq_error_iff.mp hprepare with hfails | ⟨devices, u, hdevices, hprepare⟩
  · exact .inl (Action.ofExcept_eq_error_iff.mp hfails).1
  obtain ⟨hresolve, rfl⟩ := Action.ofExcept_eq_ok_iff.mp hdevices
  right
  rcases bind_eq_error_iff.mp hprepare with hfails | ⟨verdict, u, -, hprepare⟩
  · obtain ⟨hrequire, -⟩ := Action.ofExcept_eq_error_iff.mp hfails
    rw [TrustTable.require_eq] at hrequire
    split at hrequire
    · cases hrequire
    · next hrejected =>
      cases hrequire
      exact .inl ⟨devices, hresolve, hrejected, rfl⟩
  right
  rcases bind_eq_error_iff.mp hprepare with hfails | ⟨key, u, -, hprepare⟩
  · obtain ⟨e, hdraw, -⟩ := Action.draw_eq_error_iff.mp hfails
    exact ContentKey.eq_of_generate_error hdraw
  rcases bind_eq_error_iff.mp hprepare with hfails | ⟨payload, u, -, hprepare⟩
  · obtain ⟨e, hdraw, -⟩ := Action.draw_eq_error_iff.mp hfails
    exact ContentKey.eq_of_encrypt_error hdraw
  · cases hprepare

/-- Every encryption accounts for the devices that it is meant for. If it succeeds, each of the
devices that the lookup finds has a key, or failed, or is one of the untrusted ones, and only one of
these. If it fails, nothing but randomness was used; and it fails because of undecided devices
exactly when the lookup succeeds and some are not allowed. -/
theorem accounted (recipients : List Account) (plaintext : Bytes) (allowed : DeviceSet)
    (s : Scene) :
    (∀ encryption t, encryptFor recipients plaintext allowed s = .ok encryption t →
      ∃ devices, resolveOthers s recipients = .ok devices ∧
        (∀ device, device ∈ devices ↔ s.Reaches recipients device) ∧
        encryption.devices.Nodup ∧
        (∀ device, device ∈ encryption.devices ↔ device ∈ devices) ∧
        ∀ device, device ∈ encryption.untrusted ↔
          device ∈ devices ∧ s.messenger.trustState device = .untrusted) ∧
    (∀ err t, encryptFor recipients plaintext allowed s = .error err t →
      ∃ e, t = { s with entropy := e }) ∧
    ∀ rejected,
      (∃ t, encryptFor recipients plaintext allowed s = .error (.undecidedTrust rejected) t) ↔
        ∃ devices, resolveOthers s recipients = .ok devices ∧ rejected ≠ ∅ ∧
          ∀ device, device ∈ rejected ↔
            device ∈ devices ∧ s.messenger.trustState device = .undecided ∧ device ∉ allowed := by
  refine ⟨fun encryption t h => ?_, fun err t h => exists_of_encryptFor_eq_error h,
    fun rejected => ⟨?_, ?_⟩⟩
  · obtain ⟨devices, hresolve, hnodup, hdevices, huntrusted⟩ := devices_of_encryptFor h
    refine ⟨devices, hresolve, fun _ => mem_of_resolveOthers hresolve, hnodup, hdevices, ?_⟩
    intro device
    rw [huntrusted]
    exact TrustTable.mem_untrusted
  · rintro ⟨t, h⟩
    rcases cases_of_encryptFor_eq_error h with hfails | ⟨devices, hresolve, hne, heq⟩ | heq
    · cases area?_of_resolveOthers hfails
    · cases heq
      exact ⟨devices, hresolve, hne, fun _ => TrustTable.mem_rejected⟩
    · cases heq
  · rintro ⟨devices, hresolve, hne, hmem⟩
    have heq : rejected = s.messenger.store.trust.rejected devices allowed := by
      apply Std.ExtTreeSet.ext_mem
      intro device
      exact (hmem device).trans TrustTable.mem_rejected.symm
    subst heq
    exact ⟨s, encryptFor_of_rejected hresolve hne⟩

end Messenger

section Example

attribute [local instance] CipherSuite.transparent

/-- A device that knows of three others: one that it trusts, one that it trusts and that has no
bundle although it is on the list, and one that it does not trust. -/
def Scene.company? : Option Scene :=
  match newcomer? ⟨"bob", 1⟩, newcomer? ⟨"alice", 1⟩ with
  | some bob, some alice =>
    let published := (bob.run [.publishBundle]).directory
    let directory := (published.advertise "bob" (.active 2 .epoch)).advertise "bob"
      (.active 3 .epoch)
    some ({ alice with directory }.run [.decideTrust ⟨"bob", 1⟩ .trusted,
      .decideTrust ⟨"bob", 2⟩ .trusted, .decideTrust ⟨"bob", 3⟩ .untrusted])
  | _, _ => none

/-- Each of three devices is accounted for in its own way, though their account is named twice. -/
theorem Scene.accounted_of_company :
    ∃ s encryption t,
      Messenger.encryptFor ["bob", "bob"] [1, 2, 3] ∅ s = .ok encryption t ∧
      encryption.envelope.recipients = [⟨"bob", 1⟩] ∧
      encryption.failures.map (·.device) = [⟨"bob", 2⟩] ∧
      encryption.untrusted.toList = [⟨"bob", 3⟩] ∧
      encryption.devices.Nodup ∧
      ∀ device, device ∈ encryption.devices ↔ s.Reaches ["bob", "bob"] device := by
  have hstart : company?.any fun s =>
      (answer? (Messenger.encryptFor ["bob", "bob"] [1, 2, 3] ∅) s).any fun encryption =>
        encryption.envelope.recipients = [⟨"bob", 1⟩] ∧
        encryption.failures.map (·.device) = [⟨"bob", 2⟩] ∧
        encryption.untrusted.toList = [⟨"bob", 3⟩] := by
    decide +kernel
  obtain ⟨s, -, hs⟩ := (Option.any_eq_true _ _).mp hstart
  obtain ⟨encryption, hanswer, hp⟩ := (Option.any_eq_true _ _).mp hs
  obtain ⟨hkeys, hfailures, huntrusted⟩ := of_decide_eq_true hp
  obtain ⟨t, h⟩ := exists_of_answer? hanswer
  obtain ⟨devices, -, hreaches, hnodup, hdevices, -⟩ :=
    (Messenger.accounted ["bob", "bob"] [1, 2, 3] ∅ s).1 encryption t h
  exact ⟨s, encryption, t, h, hkeys, hfailures, huntrusted, hnodup, fun device =>
    (hdevices device).trans (hreaches device)⟩

end Example

end MultiDevice
