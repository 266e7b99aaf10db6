import MultiDevice.Proofs.Entries
import MultiDevice.Proofs.KeyWrap.Consumption
import MultiDevice.Proofs.KeyWrap.KeyUse

/-!
# How sessions with a device are started

A secret is derived from the secrets that the keys of both sides share: identities, the signed
pre-key, an ephemeral key, and a one-time pre-key if there is one. A session that is built for a
header with a one-time pre-key uses it up, so it is built once. A session that is built for a header
without one may be built again, from the same shared secrets, when the first was forgotten or when
the header comes with another ephemeral key that shares the same. Where this does not happen, every
secret is new.

Only derivation is taken to be ideal. Nothing is assumed of key agreement: that two ephemeral keys
share the same with a device is a case to be excluded, not one that is assumed away.

## Main definitions

* `Contact.Repeats`: two sessions were started from the same shared secrets
* `KeyUse.Ideal`: what ideal key derivation promises about a use of keys
* `KeyUse.StartsOnce`: no session was started again
* `Store.Remembers`: what was used with a device is not used again

## Main results

* `Store.Remembers.unwrap`: a content key is opened under a key that was not used before, also when
  a session is started for it
-/

namespace MultiDevice

open MultiDevice.Derivation (Distinct)

/-! ## Sessions that are started alike -/

namespace Contact

/-- What a secret is derived from: the shared secrets, and the purpose. -/
def input (contact : Contact) : Bytes × Bytes := (contact.material, contact.info)

/-- Two sessions were started from the same shared secrets, though not with one and the same
one-time pre-key. The ephemeral key may be the same or another one that gives the same: of X25519
these are the coordinates `u` and `1 / u`, and all points of low order. -/
def Repeats (a b : Contact) : Prop :=
  a.input = b.input ∧ (a.oneTimePreKey = none ∨ a.oneTimePreKey ≠ b.oneTimePreKey)

instance (a b : Contact) : Decidable (a.Repeats b) :=
  inferInstanceAs (Decidable (_ ∧ (_ ∨ _)))

end Contact

namespace KeyUse

variable {u v : KeyUse}

/-- No two sessions were started from the same shared secrets, but for those that would have taken
one and the same one-time pre-key. -/
def StartsOnce (u : KeyUse) : Prop := u.contacts.Pairwise fun a b => ¬ a.Repeats b

instance (u : KeyUse) : Decidable u.StartsOnce :=
  inferInstanceAs (Decidable (u.contacts.Pairwise _))

variable [CipherSuite]

/-- Every secret that was agreed on is that of a session. -/
def Accounts (u : KeyUse) : Prop :=
  ∀ secret, .agreed secret ∈ u.derivations → ∃ contact ∈ u.contacts, contact.secret = secret

theorem Accounts.nothing : nothing.Accounts := fun _ hmem => absurd hmem List.not_mem_nil

theorem Accounts.append (hu : u.Accounts) (hv : v.Accounts) : (u ++ v).Accounts := by
  intro secret hmem
  rcases List.mem_append.mp hmem with hmem | hmem
  · obtain ⟨contact, hc, hs⟩ := hu secret hmem
    exact ⟨contact, List.mem_append_left _ hc, hs⟩
  · obtain ⟨contact, hc, hs⟩ := hv secret hmem
    exact ⟨contact, List.mem_append_right _ hc, hs⟩

/-- What ideal key derivation promises: different derivations have different outputs, those of keys
from keys and those of secrets from what was combined. -/
structure Ideal (u : KeyUse) : Prop where
  distinct : Distinct u.derivations
  apart : Agreement.DerivesApart (Contact.input '' {contact | contact ∈ u.contacts})

instance (u : KeyUse) : Decidable u.Ideal :=
  decidable_of_iff (Distinct u.derivations ∧
      ∀ a ∈ u.contacts, ∀ b ∈ u.contacts, a.secret = b.secret → a.input = b.input) <| by
    constructor
    · rintro ⟨hdistinct, hapart⟩
      refine ⟨hdistinct, ?_⟩
      rintro _ ⟨a, ha, rfl⟩ _ ⟨b, hb, rfl⟩ hsecret
      exact hapart a ha b hb hsecret
    · intro h
      exact ⟨h.distinct, fun a ha b hb hsecret => h.apart ⟨a, ha, rfl⟩ ⟨b, hb, rfl⟩ hsecret⟩

/-- Primitives are ideal, and no session was started again. -/
structure Fresh (u : KeyUse) : Prop where
  ideal : u.Ideal
  once : u.StartsOnce

theorem Fresh.of_append (h : (u ++ v).Fresh) : u.Fresh where
  ideal.distinct := h.ideal.distinct.subset (List.subset_append_left _ _)
  ideal.apart := h.ideal.apart.mono (Set.image_mono fun _ hc => List.mem_append_left _ hc)
  once := (List.pairwise_append.mp h.once).1

end KeyUse

/-! ## What is started -/

namespace KeyWrap

variable [CipherSuite] {c : Settings} {s s' : Store} {device : DeviceAddress} {t : KeyTransport}
  {e e' : Entropy}

theorem useToUnwrap_accounts (c : Settings) (s : Store) (device : DeviceAddress)
    (t : KeyTransport) (e : Entropy) : (useToUnwrap c s device t e).Accounts := by
  unfold useToUnwrap
  split
  · exact .nothing
  · split
    · next hstarted =>
      intro secret hmem
      rcases List.mem_cons.mp hmem with heq | hmem
      · cases heq
        exact ⟨_, List.mem_cons_self, secret_of_started hstarted⟩
      · exact absurd hmem (Ratchet.agreed_notMem_derivedFor _ _ _ _)
    · split
      · split
        · exact fun secret hmem => absurd hmem (Ratchet.agreed_notMem_derivedFor _ _ _ _)
        · exact .nothing
      · exact .nothing

theorem useToStart_accounts (c : Settings) (s : Store) (b : PreKeyBundle) (e : Entropy) :
    (useToStart c s b e).Accounts := by
  unfold useToStart
  split
  · exact .nothing
  · next hagreed =>
    split
    · exact .nothing
    · intro secret hmem
      rcases List.mem_append.mp hmem with hmem | hmem
      · simp only [List.cons_append, List.nil_append, List.mem_cons, List.not_mem_nil,
          Derivation.agreed.injEq, reduceCtorEq, or_false] at hmem
        rw [hmem, Agreement.secret_of_initiate hagreed]
        exact ⟨_, List.mem_cons_self, rfl⟩
      · exact absurd hmem (Ratchet.agreed_notMem_derivedNext _ _)

theorem useToWrap_accounts (c : Settings) (s : Store) (device : DeviceAddress)
    (bundle : Option PreKeyBundle) (key : ContentKey) (e : Entropy) :
    (useToWrap c s device bundle key e).Accounts := by
  unfold useToWrap
  split
  · exact .nothing
  · split
    · exact fun secret hmem => absurd hmem (Ratchet.agreed_notMem_derivedNext _ _)
    · exact useToStart_accounts _ _ _ _
    · exact .nothing

/-- A session that the device did not build for a header takes none of its own pre-keys. -/
theorem oneTimePreKey_of_useToStart {b : PreKeyBundle} {contact : Contact}
    (h : contact ∈ (useToStart c s b e).contacts) : contact.oneTimePreKey = none := by
  unfold useToStart at h
  split at h
  · exact absurd h List.not_mem_nil
  · split at h
    · exact absurd h List.not_mem_nil
    · cases List.mem_singleton.mp h
      rfl

theorem oneTimePreKey_of_useToWrap {bundle : Option PreKeyBundle} {key : ContentKey}
    {contact : Contact} (h : contact ∈ (useToWrap c s device bundle key e).contacts) :
    contact.oneTimePreKey = none := by
  unfold useToWrap at h
  split at h
  · exact absurd h List.not_mem_nil
  · split at h
    · exact absurd h List.not_mem_nil
    · exact oneTimePreKey_of_useToStart h
    · exact absurd h List.not_mem_nil

/-- The one-time pre-key that a session was built with was there, and is gone. -/
theorem oneTimePreKey_of_useToUnwrap {u : Unwrapped}
    (h : unwrap c s device t e = .ok (u, s') e') {contact : Contact}
    (hc : contact ∈ (useToUnwrap c s device t e).contacts) {x : UInt32 × OneTimePreKey}
    (hx : contact.oneTimePreKey = some x) :
    x ∈ s.oneTimePreKeys.entries ∧ x ∉ s'.oneTimePreKeys.entries := by
  obtain ⟨existing, reading, hl, hread, -, -, -, hconsumed, rfl⟩ := exists_of_unwrap_eq_ok h
  rcases exists_of_readTransport hread with
    ⟨record, rfl, hhas, hknown⟩ | ⟨header, hpre, hno, hnew⟩
  · obtain ⟨session, others, e₁, -, hreader, -⟩ :=
      SessionRecord.exists_of_decrypt_eq_ok (decrypt_of_readKnown hknown).1
    rw [useToUnwrap_of_reader h hl hhas hreader] at hc
    exact absurd hc List.not_mem_nil
  · obtain ⟨session, session', hbuilt, -, hreading⟩ := exists_of_readNew hnew
    obtain ⟨signed, hcontact⟩ := built_of_inbound hbuilt
    rw [useToUnwrap_of_built h hl hpre hno hcontact] at hc
    cases List.mem_singleton.mp hc
    obtain ⟨id, hid, hkey⟩ := Option.bind_eq_some_iff.mp hx
    obtain ⟨key, hget, rfl⟩ := Option.map_eq_some_iff.mp hkey
    refine ⟨OneTimePreKeyPool.mem_entries.mpr hget, fun hmem => ?_⟩
    have hused : u.consumed = some id := by
      rw [hconsumed, hreading, Reading.consumed, if_pos rfl, hpre]
      exact hid
    rw [hused] at hmem
    have hkept := OneTimePreKeyPool.mem_entries.mp hmem
    refine OneTimePreKeyPool.notMem_remove s.oneTimePreKeys id ?_
    exact Entries.mem_of_getElem? hkept

/-- Unwrapping makes no one-time pre-key. -/
theorem entries_of_unwrap {u : Unwrapped} (h : unwrap c s device t e = .ok (u, s') e') :
    ∀ x ∈ s'.oneTimePreKeys.entries, x ∈ s.oneTimePreKeys.entries := by
  rintro ⟨id, key⟩ hx
  rcases unwrap_oneTimePreKeys h with ⟨-, heq⟩ | ⟨gone, -, -, heq⟩
  · rw [← heq]
    exact hx
  · rw [heq] at hx
    have hkey := OneTimePreKeyPool.mem_entries.mp hx
    change (s.oneTimePreKeys.keys.erase gone)[id]? = some key at hkey
    exact OneTimePreKeyPool.mem_entries.mpr (Entries.of_erase hkey)

end KeyWrap

/-! ## What is remembered -/

section Remembers

variable [CipherSuite] {device : DeviceAddress} {use new : KeyUse}
  {made made' : List (UInt32 × OneTimePreKey)} {s s' : Store} {c : KeyWrap.Settings}
  {t : KeyTransport} {e e' : Entropy}

/-- What was used with a device is not used again: the sessions hold unspent keys, every secret was
that of a session, and of the one-time pre-keys made those that sessions were built with are
gone. -/
structure Store.Remembers (device : DeviceAddress) (use : KeyUse)
    (made : List (UInt32 × OneTimePreKey)) (s : Store) : Prop where
  held : s.HoldsUnspent device use.derivations
  accounts : use.Accounts
  pool : ∀ x ∈ s.oneTimePreKeys.entries, x ∈ made
  gone : ∀ contact ∈ use.contacts, ∀ x, contact.oneTimePreKey = some x →
    x ∈ made ∧ x ∉ s.oneTimePreKeys.entries

namespace Store.Remembers

/-- Sessions may be forgotten, and one-time pre-keys removed. -/
theorem of_kept (h : s.Remembers device use made)
    (hs : ∀ bytes, s'.sessions[device]? = some bytes → s.sessions[device]? = some bytes)
    (hp : ∀ x ∈ s'.oneTimePreKeys.entries, x ∈ s.oneTimePreKeys.entries) :
    s'.Remembers device use made := by
  refine ⟨h.held.of_kept hs, h.accounts, fun x hx => h.pool x (hp x hx),
    fun contact hc x hx => ?_⟩
  obtain ⟨hmade, hnotMem⟩ := h.gone contact hc x hx
  exact ⟨hmade, fun hmem => hnotMem (hp x hmem)⟩

theorem mono (h : s.Remembers device use made) (hs : made ⊆ made') :
    s.Remembers device use made' :=
  ⟨h.held, h.accounts, fun x hx => hs (h.pool x hx), fun contact hc x hx =>
    ⟨hs (h.gone contact hc x hx).1, (h.gone contact hc x hx).2⟩⟩

/-- Sessions may be forgotten, and one-time pre-keys made that were not made before. -/
theorem of_made (h : s.Remembers device use made)
    (hs : ∀ bytes, s'.sessions[device]? = some bytes → s.sessions[device]? = some bytes)
    (hmade : (made ++ s.oneTimePreKeys.madeSince s'.oneTimePreKeys).Nodup) :
    s'.Remembers device use (made ++ s.oneTimePreKeys.madeSince s'.oneTimePreKeys) := by
  have hnew : ∀ x ∈ s'.oneTimePreKeys.entries, x ∈ s.oneTimePreKeys.entries ∨
      x ∈ s.oneTimePreKeys.madeSince s'.oneTimePreKeys := fun x hx =>
    or_iff_not_imp_left.mpr fun hno => OneTimePreKeyPool.mem_madeSince.mpr ⟨hx, hno⟩
  refine ⟨h.held.of_kept hs, h.accounts, fun x hx => ?_, fun contact hc x hx => ?_⟩
  · exact List.mem_append.mpr ((hnew x hx).imp_left (h.pool x))
  · obtain ⟨hbefore, hnotMem⟩ := h.gone contact hc x hx
    refine ⟨List.mem_append_left _ hbefore, fun hmem => ?_⟩
    rcases hnew x hmem with hold | hlater
    · exact hnotMem hold
    · exact (List.nodup_append.mp hmade).2.2 x hbefore x hlater rfl

/-- The secret of a session that is started now was not agreed on before. -/
theorem secret_notMem (h : s.Remembers device use made) (hfresh : (use ++ new).Fresh)
    (hpool : ∀ contact ∈ new.contacts, ∀ x, contact.oneTimePreKey = some x →
      x ∈ s.oneTimePreKeys.entries) :
    ∀ contact ∈ new.contacts, .agreed contact.secret ∉ use.derivations := by
  intro contact hc hmem
  obtain ⟨earlier, hearlier, hsecret⟩ := h.accounts _ hmem
  have hinput : earlier.input = contact.input :=
    hfresh.ideal.apart ⟨earlier, List.mem_append_left _ hearlier, rfl⟩
      ⟨contact, List.mem_append_right _ hc, rfl⟩ hsecret
  have hnew : ¬ earlier.Repeats contact :=
    (List.pairwise_append.mp hfresh.once).2.2 earlier hearlier contact hc
  -- what was started from the same shared secrets took one and the same one-time pre-key
  have hsame : earlier.oneTimePreKey = contact.oneTimePreKey :=
    by_contra fun hne => hnew ⟨hinput, .inr hne⟩
  obtain ⟨x, hx⟩ := Option.ne_none_iff_exists'.mp fun hnone => hnew ⟨hinput, .inl hnone⟩
  exact (h.gone earlier hearlier x hx).2 (hpool contact hc x (hsame.symm.trans hx))

/-- A content key from the device is opened under a key that was not used before. -/
theorem unwrap {u : KeyWrap.Unwrapped} (h : s.Remembers device use made)
    (hu : KeyWrap.unwrap c s device t e = .ok (u, s') e')
    (hfresh : (use ++ KeyWrap.useToUnwrap c s device t e).Fresh) :
    s'.Remembers device (use ++ KeyWrap.useToUnwrap c s device t e) made ∧
      ∃ key, .cipher key ∈ (KeyWrap.useToUnwrap c s device t e).derivations ∧
        .cipher key ∉ use.derivations ∧
        CipherSuite.Opens (Derivation.cipher key).output t.message.ciphertext := by
  have hbuilt : ∀ contact ∈ (KeyWrap.useToUnwrap c s device t e).contacts, ∀ x,
      contact.oneTimePreKey = some x →
        x ∈ s.oneTimePreKeys.entries ∧ x ∉ s'.oneTimePreKeys.entries :=
    fun _ hc _ hx => KeyWrap.oneTimePreKey_of_useToUnwrap hu hc hx
  have hnew := h.secret_notMem hfresh fun contact hc x hx => (hbuilt contact hc x hx).1
  obtain ⟨hheld, hkey⟩ := h.held.unwrap hu hnew hfresh.ideal.distinct
  have hkept := KeyWrap.entries_of_unwrap hu
  refine ⟨⟨hheld, h.accounts.append (KeyWrap.useToUnwrap_accounts _ _ _ _ _),
    fun x hx => h.pool x (hkept x hx), fun contact hc x hx => ?_⟩, hkey⟩
  rcases List.mem_append.mp hc with hc | hc
  · obtain ⟨hmade, hnotMem⟩ := h.gone contact hc x hx
    exact ⟨hmade, fun hmem => hnotMem (hkept x hmem)⟩
  · obtain ⟨hthere, hnotMem⟩ := hbuilt contact hc x hx
    exact ⟨h.pool x hthere, hnotMem⟩

/-- A content key from another device may use up a one-time pre-key. -/
theorem unwrap_of_ne {other : DeviceAddress} {u : KeyWrap.Unwrapped}
    (h : s.Remembers device use made) (hne : other ≠ device)
    (hu : KeyWrap.unwrap c s other t e = .ok (u, s') e') : s'.Remembers device use made := by
  refine h.of_kept (fun bytes hb => ?_) (KeyWrap.entries_of_unwrap hu)
  obtain ⟨existing, reading, -, -, -, -, -, -, rfl⟩ := KeyWrap.exists_of_unwrap_eq_ok hu
  rw [KeyWrap.withoutConsumed_sessions] at hb
  change (s.sessions.insert other _)[device]? = some bytes at hb
  rwa [Entries.insert_of_ne hne.symm] at hb

/-- A content key goes to the device. -/
theorem wrap {bundle : Option PreKeyBundle} {key : ContentKey} (h : s.Remembers device use made)
    (hw : KeyWrap.wrap c s device bundle key e = .ok (t, s') e')
    (hfresh : (use ++ KeyWrap.useToWrap c s device bundle key e).Fresh) :
    s'.Remembers device (use ++ KeyWrap.useToWrap c s device bundle key e) made := by
  have hnone : ∀ contact ∈ (KeyWrap.useToWrap c s device bundle key e).contacts, ∀ x,
      contact.oneTimePreKey ≠ some x := by
    intro contact hc x hx
    cases (KeyWrap.oneTimePreKey_of_useToWrap hc).symm.trans hx
  have hnew := h.secret_notMem hfresh fun contact hc x hx => absurd hx (hnone contact hc x)
  have hpool := KeyWrap.wrap_oneTimePreKeys hw
  refine ⟨h.held.wrap hw hnew hfresh.ideal.distinct,
    h.accounts.append (KeyWrap.useToWrap_accounts _ _ _ _ _ _), fun x hx => ?_,
    fun contact hc x hx => ?_⟩
  · rw [hpool] at hx
    exact h.pool x hx
  · rw [hpool]
    rcases List.mem_append.mp hc with hc | hc
    · exact h.gone contact hc x hx
    · exact absurd hx (hnone contact hc x)

end Store.Remembers

end Remembers

end MultiDevice
