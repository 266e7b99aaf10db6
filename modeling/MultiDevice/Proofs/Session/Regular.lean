import MultiDevice.Proofs.Ratchet.Reader
import MultiDevice.Proofs.Session.Record

/-!
# The shape of sessions and of records

A session is kept once it can send, and it sends along what the other device needs for as long as
that device was not heard of. A record keeps a limited number of sessions, no two of which were
agreed with one ephemeral key.

## Main definitions

* `Ratchet.Regular`: what every ratchet starts with and keeps
* `Session.Regular`: a session that can send, and sends a header along until it is answered
* `SessionRecord.Regular`: a record of few enough such sessions with ephemeral keys of their own

## Main results

* `Ratchet.Regular.exists_chains`: a ratchet that read a message has a chain in either direction
* `SessionRecord.Regular.decrypt`, `.promote`: a record stays regular when a message is read
* `Session.Regular.encrypt_cases`: a regular session sends unless its chain is exhausted
-/

namespace MultiDevice

/-- What every ratchet starts with and keeps: keys are put aside only where there is a chain of the
peer, and a ratchet that cannot send has not heard of the peer. -/
structure Ratchet.Regular (r : Ratchet) : Prop where
  skipped : r.receiving = none → r.skipped = ∅
  waiting : r.sending = none → r.remote = none ∧ r.receiving = none

theorem Ratchet.regular_respond (rootKey : Block 32) (secret : Secret) (maxSkip : UInt32)
    (associatedData : Block 64) : (respond rootKey secret maxSkip associatedData).Regular :=
  ⟨fun _ => rfl, fun _ => ⟨rfl, rfl⟩⟩

/-- A session that can send. It sends a header along exactly as long as it has no chain of the other
device, and no message keys are put aside before that. -/
structure Session.Regular (s : Session) : Prop where
  sending : s.ratchet.sending.isSome = true
  pending : s.pending.isSome = true ↔ s.ratchet.receiving = none
  skipped : s.ratchet.receiving = none → s.ratchet.skipped = ∅

namespace SessionRecord

/-- A record of few enough regular sessions, no two of them agreed with one ephemeral key. -/
structure Regular (r : SessionRecord) : Prop where
  previous : r.previous.length ≤ archiveLimit
  baseKeys : r.sessions.Pairwise fun a b => ¬ a.baseKey.SamePoint b.baseKey
  sessions : ∀ s ∈ r.sessions, s.Regular

end SessionRecord

variable [CipherSuite] {m : RatchetMessage} {e e' : Entropy} {plaintext : Bytes}

/-! ## Ratchets -/

namespace Ratchet

variable {r r' : Ratchet}

theorem exists_of_initiate {secret : Block 32} {remote : PublicKey} {maxSkip : UInt32}
    {associatedData : Block 64} (h : initiate secret remote maxSkip associatedData e = .ok r e') :
    (∃ chain, r.sending = some chain) ∧ r.receiving = none ∧ r.skipped = ∅ := by
  obtain ⟨own, t, -, h⟩ := bind_eq_ok_iff.mp h
  cases h
  exact ⟨⟨_, rfl⟩, rfl, rfl⟩

/-- What reading on a chain leaves: the sending chain as it was, and a receiving chain. -/
theorem chains_of_readOnChain (h : r.readOnChain m = .ok (plaintext, r')) :
    r'.sending = r.sending ∧ ∃ chain, r'.receiving = some chain := by
  obtain ⟨r₁, -, -, next, hs, -, -, rfl⟩ := exists_of_readOnChain h
  obtain ⟨receiving, skipped, rfl⟩ := exists_of_skip hs
  exact ⟨rfl, next, rfl⟩

/-- Taking up a ratchet key of the peer derives a chain in either direction. -/
theorem exists_sending_of_turn {remote : PublicKey} (h : r.turn remote e = .ok r' e') :
    ∃ chain, r'.sending = some chain := by
  obtain ⟨own, t, -, h⟩ := bind_eq_ok_iff.mp h
  cases h
  exact ⟨_, rfl⟩

/-- A ratchet that read a message has a chain in either direction. -/
theorem Regular.exists_chains (hr : r.Regular) (h : r.decrypt m e = .ok (plaintext, r') e') :
    (∃ chain, r'.sending = some chain) ∧ ∃ chain, r'.receiving = some chain := by
  cases hs : r.skipped[m.id]? with
  | some key =>
    have hreceiving : r.receiving ≠ none := by
      intro hnone
      rw [hr.skipped hnone, Std.ExtTreeMap.getElem?_empty] at hs
      cases hs
    have hsending : r.sending ≠ none := fun hnone => hreceiving (hr.waiting hnone).2
    unfold RatchetMessage.id at hs
    unfold decrypt at h
    simp only [hs] at h
    obtain ⟨p, t, -, h⟩ := bind_eq_ok_iff.mp h
    cases h
    exact ⟨Option.ne_none_iff_exists'.mp hsending, Option.ne_none_iff_exists'.mp hreceiving⟩
  | none =>
    cases hf : r.follows m.header.ratchetKey with
    | true =>
      rw [decrypt_of_follows hs hf] at h
      obtain ⟨hsame, hreceiving⟩ := chains_of_readOnChain (Draw.ofExcept_eq_ok_iff.mp h).1
      have hsending : r.sending ≠ none := by
        intro hnone
        unfold follows at hf
        rw [(hr.waiting hnone).1] at hf
        cases hf
      rw [hsame]
      exact ⟨Option.ne_none_iff_exists'.mp hsending, hreceiving⟩
    | false =>
      rw [decrypt_of_not_follows hs hf] at h
      obtain ⟨r₁, t₁, -, h⟩ := bind_eq_ok_iff.mp h
      obtain ⟨r₂, t₂, hturn, h⟩ := bind_eq_ok_iff.mp h
      obtain ⟨hsame, hreceiving⟩ := chains_of_readOnChain (Draw.ofExcept_eq_ok_iff.mp h).1
      rw [hsame]
      exact ⟨exists_sending_of_turn hturn, hreceiving⟩

end Ratchet

/-! ## Sessions -/

namespace Session

variable {s s' : Session}

theorem baseKey_of_encrypt (h : s.encrypt plaintext = .ok m s') : s'.baseKey = s.baseKey := by
  obtain ⟨ratchet, -, rfl⟩ := encrypt_eq_ok_iff.mp h
  rfl

theorem baseKey_of_decrypt (h : s.decrypt m e = .ok (plaintext, s') e') :
    s'.baseKey = s.baseKey := by
  obtain ⟨ratchet, -, rfl⟩ := decrypt_eq_ok_iff.mp h
  rfl

/-- A session that read a message is regular: it is established and has a chain in either
direction. -/
theorem regular_of_decrypt (hs : s.ratchet.Regular)
    (h : s.decrypt m e = .ok (plaintext, s') e') : s'.Regular := by
  obtain ⟨ratchet, hd, rfl⟩ := decrypt_eq_ok_iff.mp h
  obtain ⟨⟨sending, hsending⟩, receiving, hreceiving⟩ := hs.exists_chains hd
  have hsome : ratchet.receiving ≠ none := by
    rw [hreceiving]
    exact Option.some_ne_none receiving
  exact ⟨Option.isSome_of_eq_some hsending, ⟨nofun, fun hnone => absurd hnone hsome⟩,
    fun hnone => absurd hnone hsome⟩

namespace Regular

omit [CipherSuite] in
theorem ratchet (h : s.Regular) : s.ratchet.Regular := by
  refine ⟨h.skipped, fun hnone => ?_⟩
  have hsending := h.sending
  rw [hnone] at hsending
  cases hsending

theorem encrypt (h : s.Regular) (he : s.encrypt plaintext = .ok m s') : s'.Regular := by
  obtain ⟨ratchet, hr, rfl⟩ := encrypt_eq_ok_iff.mp he
  obtain ⟨chain, -, rfl, -⟩ := Ratchet.exists_of_encrypt hr
  exact ⟨rfl, h.pending, h.skipped⟩

/-- A regular session sends, unless its chain is exhausted. -/
theorem encrypt_cases (h : s.Regular) (plaintext : Bytes) :
    ∃ chain, s.ratchet.sending = some chain ∧
      ((chain.index ≠ Chain.lastIndex ∧ ∃ m s', s.encrypt plaintext = .ok m s') ∨
        (chain.index = Chain.lastIndex ∧
          ∃ s', s.encrypt plaintext = .error .chainExhausted s')) := by
  obtain ⟨chain, hchain⟩ := Option.isSome_iff_exists.mp h.sending
  refine ⟨chain, hchain, ?_⟩
  by_cases hlast : chain.index = Chain.lastIndex
  · refine .inr ⟨hlast, ?_⟩
    have hadvance : chain.advance = .error .chainExhausted { chain with key := chain.nextKey } :=
      if_pos hlast
    simp only [Session.encrypt, Ratchet.encrypt, hchain, hadvance]
    exact ⟨_, rfl⟩
  · refine .inl ⟨hlast, ?_⟩
    have hadvance : chain.advance =
        .ok chain.messageKey { key := chain.nextKey, index := chain.index + 1 } := if_neg hlast
    simp only [Session.encrypt, Ratchet.encrypt, hchain, hadvance]
    exact ⟨_, _, rfl⟩

end Regular

end Session

/-! ## Records -/

namespace SessionRecord.Regular

variable {r r' : SessionRecord} {s : Session}

omit [CipherSuite] in
theorem ofSession (h : s.Regular) : (SessionRecord.ofSession s).Regular := by
  refine ⟨Nat.zero_le _, List.pairwise_singleton _ s, fun x hx => ?_⟩
  rw [List.mem_singleton.mp hx]
  exact h

omit [CipherSuite] in
/-- A session with an ephemeral key of its own joins the others. -/
theorem promote (h : r.Regular) (hs : s.Regular)
    (hnew : ∀ x ∈ r.sessions, ¬ x.baseKey.SamePoint s.baseKey) : (r.promote s).Regular := by
  have hkept : ∀ x ∈ r.sessions.take archiveLimit, x ∈ r.sessions := fun x hx =>
    List.mem_of_mem_take hx
  refine ⟨List.length_take_le _ _, List.pairwise_cons.mpr ⟨fun x hx hsame => ?_, ?_⟩,
    List.forall_mem_cons.mpr ⟨hs, fun x hx => h.sessions x (hkept x hx)⟩⟩
  · exact hnew x (hkept x hx) hsame.symm
  · exact h.baseKeys.sublist (List.take_sublist _ _)

/-- The current session sends a message. -/
theorem encrypt (h : r.Regular) (he : r.current.encrypt plaintext = .ok m s) :
    ({ r with current := s } : SessionRecord).Regular := by
  obtain ⟨hcurrent, hprevious⟩ := List.pairwise_cons.mp h.baseKeys
  refine ⟨h.previous, List.pairwise_cons.mpr ⟨?_, hprevious⟩, List.forall_mem_cons.mpr ⟨?_, ?_⟩⟩
  · rw [Session.baseKey_of_encrypt he]
    exact hcurrent
  · exact (h.sessions r.current List.mem_cons_self).encrypt he
  · exact fun x hx => h.sessions x (List.mem_cons_of_mem _ hx)

/-- One of the sessions reads a message, and keeps its ephemeral key. -/
theorem decrypt {identity : PublicKey} {baseKey : Option PublicKey} (h : r.Regular)
    (hd : r.decrypt m baseKey e = .ok (plaintext, identity, r') e') : r'.Regular := by
  obtain ⟨s, others, e₁, ho, -, hread, -⟩ := exists_of_decrypt_eq_ok hd
  have hregular : ∀ x ∈ s :: others, x.Regular := fun x hx =>
    h.sessions x (ho.tried.mem_iff.mpr hx)
  have hsame := Session.baseKey_of_decrypt hread
  have hkeys : (s :: others).Pairwise fun a b => ¬ a.baseKey.SamePoint b.baseKey :=
    h.baseKeys.perm ho.tried fun hne hsame => hne hsame.symm
  obtain ⟨hreader, hothers⟩ := List.pairwise_cons.mp hkeys
  refine ⟨?_, List.pairwise_cons.mpr ⟨fun x hx => ?_, hothers.sublist ho.previous⟩,
    List.forall_mem_cons.mpr ⟨?_, fun x hx => ?_⟩⟩
  · rw [← Nat.max_eq_right h.previous]
    exact ho.length_previous
  · rw [hsame]
    exact hreader x (ho.previous.subset hx)
  · exact Session.regular_of_decrypt (hregular s List.mem_cons_self).ratchet hread
  · exact hregular x (List.mem_cons_of_mem s (ho.previous.subset hx))

end SessionRecord.Regular

end MultiDevice
