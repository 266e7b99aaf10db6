import MultiDevice.Proofs.Ratchet.Reader
import MultiDevice.Proofs.Session.Record
import MultiDevice.Proofs.Session.Stored

/-!
# How large stored records get

A record keeps a limited number of sessions, and a session puts message keys aside only when it
reads a message, so many at most as the message may be ahead on two chains. How many bytes a record
takes is thus limited by how many messages were read.

## Main definitions

* `SessionRecord.Compact`: a record whose sessions have put a limited number of keys aside

## Main results

* `Ratchet.size_skipped_le_of_decrypt`: how many message keys a reading puts aside
* `SessionRecord.Compact.decrypt`: a record stays compact when a message is read
* `SessionRecord.Compact.length_serialize_le`: how many bytes a compact record takes
-/

namespace MultiDevice

section Ratchet

variable [CipherSuite] {r r' : Ratchet} {m : RatchetMessage} {e e' : Entropy}

namespace Ratchet

theorem size_skipKeys_le {remote : PublicKey} {count : Nat} {chain chain' : Chain}
    {skipped skipped' : SkippedKeys}
    (h : skipKeys remote count chain skipped = .ok (chain', skipped')) :
    skipped'.size ≤ skipped.size + count := by
  induction count generalizing chain skipped with
  | zero =>
    cases h
    exact Nat.le_refl _
  | succ count ih =>
    unfold skipKeys at h
    split at h
    · cases h
    · next key next _ =>
      have hinsert : (skipped.insert ⟨remote.bytes, chain.index⟩ key).size ≤ skipped.size + 1 :=
        Std.ExtTreeMap.size_insert_le
      have hrest := ih h
      omega

/-- Skipping puts at most as many keys aside as a message may be ahead. -/
theorem size_skipped_le_of_skip {target : UInt32} (h : r.skip target = .ok r') :
    r'.skipped.size ≤ r.skipped.size + r.maxSkip.toNat ∧ r'.maxSkip = r.maxSkip := by
  unfold skip at h
  split at h
  · next remote chain _ _ =>
    split at h
    · cases h
    · next hnear =>
      split at h
      · cases h
      · next chain' skipped hs =>
        cases h
        have hle := size_skipKeys_le hs
        refine ⟨?_, rfl⟩
        change skipped.size ≤ _
        omega
  · cases h
    exact ⟨Nat.le_add_right _ _, rfl⟩

theorem size_skipped_le_of_readOnChain {p : Bytes} (h : r.readOnChain m = .ok (p, r')) :
    r'.skipped.size ≤ r.skipped.size + r.maxSkip.toNat := by
  obtain ⟨r₁, -, -, next, hs, -, -, rfl⟩ := exists_of_readOnChain h
  exact (size_skipped_le_of_skip hs).1

/-- Reading puts at most as many keys aside as a message may be ahead, once on the chain that the
peer left and once on the chain of the message. -/
theorem size_skipped_le_of_decrypt {p : Bytes} (h : r.decrypt m e = .ok (p, r') e') :
    r'.skipped.size ≤ r.skipped.size + 2 * r.maxSkip.toNat := by
  rcases decrypt_cases h with ⟨key, -, -, rfl⟩ | ⟨-, hread⟩ | ⟨-, r₁, r₂, hskip, hturn, hread⟩
  · have herase : (r.skipped.erase m.id).size ≤ r.skipped.size := Std.ExtTreeMap.size_erase_le
    exact Nat.le_trans herase (Nat.le_add_right _ _)
  · have hread := size_skipped_le_of_readOnChain hread
    omega
  · obtain ⟨hpassed, hmax⟩ := size_skipped_le_of_skip hskip
    obtain ⟨-, hmax', -, hskipped, -⟩ := exists_of_turn hturn
    have hread := size_skipped_le_of_readOnChain hread
    rw [hmax', hmax, hskipped] at hread
    omega

end Ratchet

/-- A session that reads a message puts fewer keys aside than twice the numbers there are. -/
theorem Session.size_skipped_le_of_decrypt {s s' : Session} {p : Bytes} {k : Nat}
    (h : s.decrypt m e = .ok (p, s') e') (hk : s.ratchet.skipped.size ≤ k) :
    s'.ratchet.skipped.size ≤ k + 2 * UInt32.size := by
  obtain ⟨ratchet, hr, rfl⟩ := Session.decrypt_eq_ok_iff.mp h
  have hsize := Ratchet.size_skipped_le_of_decrypt hr
  have hlt : s.ratchet.maxSkip.toNat < UInt32.size := s.ratchet.maxSkip.toNat_lt
  change ratchet.skipped.size ≤ _
  omega

end Ratchet

open Wire

/-! ## Bytes -/

/-- A session takes a limited number of bytes, and some more for each key put aside. -/
theorem Session.length_write_stored_le (s : Session) :
    (write s.stored.fields).length ≤ 752 + 144 * s.ratchet.skipped.size := by
  obtain ⟨ps, hskipped, hperm⟩ := SkippedKeys.exists_stored_eq_map s.ratchet.skipped
  have hsize : ps.length = s.ratchet.skipped.size := by
    rw [hperm.length_eq, Std.ExtTreeMap.length_toList]
  have hchain : ∀ (number : Nat) (c : Option Chain), (write (optionalMessage number
      ((c.map Chain.stored).map StoredChain.fields))).length ≤ 20 + 72 := by
    intro number c
    refine length_write_optionalMessage_le number fun fs h => ?_
    obtain ⟨_, h', rfl⟩ := Option.map_eq_some_iff.mp h
    obtain ⟨chain, -, rfl⟩ := Option.map_eq_some_iff.mp h'
    exact length_write_chain_le chain
  have hblob : ∀ (number : Nat) {n : Nat} (b : Block n),
      (write (blob number b.toList)).length ≤ 20 + n := by
    intro number n b
    have h := length_write_blob_le number b.toList
    rwa [Block.length_toList] at h
  have hremote : (write (optionalBlob 4 s.stored.remote)).length ≤ 20 + 32 := by
    refine length_write_optionalBlob_le 4 fun bs h => ?_
    obtain ⟨key, -, rfl⟩ := Option.map_eq_some_iff.mp h
    exact Nat.le_of_eq (Block.length_toList _)
  have hkeys : (write (s.stored.skipped.map fun k => message 9 k.fields)).length ≤
      s.ratchet.skipped.size * (20 + 124) := by
    rw [show s.stored.skipped = ps.map storedPair from hskipped, ← hsize]
    have hall : ∀ k ∈ ps.map storedPair, (write k.fields).length ≤ 124 := by
      intro k hk
      obtain ⟨p, -, rfl⟩ := List.mem_map.mp hk
      exact length_write_skippedKey_le p
    have h := length_write_messages_le 9 StoredSkippedKey.fields hall
    rwa [List.length_map] at h
  have hpending : (write (optionalMessage 13 (s.stored.pending.map StoredHeader.fields))).length ≤
      20 + 144 := by
    refine length_write_optionalMessage_le 13 fun fs h => ?_
    obtain ⟨_, h', rfl⟩ := Option.map_eq_some_iff.mp h
    obtain ⟨header, -, rfl⟩ := Option.map_eq_some_iff.mp h'
    exact length_write_header_le header
  have hversion := length_write_scalar_le 1 s.stored.version
  have hdata : (write (blob 2 s.stored.associatedData)).length ≤ 20 + 64 := hblob 2 _
  have hsecret : (write (blob 3 s.stored.secret)).length ≤ 20 + 32 := hblob 3 _
  have hroot : (write (blob 5 s.stored.rootKey)).length ≤ 20 + 32 := hblob 5 _
  have hsending : (write (optionalMessage 6 (s.stored.sending.map StoredChain.fields))).length ≤
      20 + 72 := hchain 6 _
  have hreceiving : (write (optionalMessage 7 (s.stored.receiving.map
      StoredChain.fields))).length ≤ 20 + 72 := hchain 7 _
  have hlength := length_write_scalar_le 8 s.stored.previousLength
  have hmax := length_write_scalar_le 10 s.stored.maxSkip
  have hidentity : (write (blob 11 s.stored.remoteIdentity)).length ≤ 20 + 32 := hblob 11 _
  have hbase : (write (blob 12 s.stored.baseKey)).length ≤ 20 + 32 := hblob 12 _
  simp only [StoredSession.fields, length_write_append]
  omega

namespace SessionRecord

/-! ## Compact records -/

/-- A record of few enough sessions, each with at most `k` message keys put aside. -/
structure Compact (k : Nat) (r : SessionRecord) : Prop where
  previous : r.previous.length ≤ archiveLimit
  skipped : ∀ s ∈ r.sessions, s.ratchet.skipped.size ≤ k

namespace Compact

variable {k k' : Nat} {r r' : SessionRecord} {s : Session}

theorem mono (h : r.Compact k) (hk : k ≤ k') : r.Compact k' :=
  ⟨h.previous, fun s hs => Nat.le_trans (h.skipped s hs) hk⟩

/-- The number of bytes that a compact record takes. -/
theorem length_serialize_le (h : r.Compact k) : r.serialize.length ≤ 31672 + 5904 * k := by
  have hcurrent : (write (optionalMessage 2 (r.stored.current.map StoredSession.fields))).length ≤
      20 + (752 + 144 * k) := by
    refine length_write_optionalMessage_le 2 fun fs hfs => ?_
    cases hfs
    have hlength := r.current.length_write_stored_le
    have hsize := h.skipped r.current List.mem_cons_self
    omega
  have hprevious : (write (r.stored.previous.map fun s => message 3 s.fields)).length ≤
      r.previous.length * (20 + (752 + 144 * k)) := by
    have hall : ∀ s ∈ r.previous.map Session.stored, (write s.fields).length ≤ 752 + 144 * k := by
      intro s hs
      obtain ⟨session, hsession, rfl⟩ := List.mem_map.mp hs
      have hlength := session.length_write_stored_le
      have hsize := h.skipped session (List.mem_cons_of_mem _ hsession)
      omega
    have hmessages := length_write_messages_le 3 StoredSession.fields hall
    rwa [List.length_map] at hmessages
  have hfew : r.previous.length * (20 + (752 + 144 * k)) ≤ 40 * (20 + (752 + 144 * k)) :=
    Nat.mul_le_mul_right _ h.previous
  have hversion := length_write_scalar_le 1 r.stored.version
  change (write r.stored.fields).length ≤ _
  simp only [StoredRecord.fields, length_write_append]
  omega

theorem ofSession (h : s.ratchet.skipped.size ≤ k) : (SessionRecord.ofSession s).Compact k := by
  refine ⟨Nat.zero_le _, fun x hx => ?_⟩
  rw [List.mem_singleton.mp hx]
  exact h

/-- A session takes the place of the current one. -/
theorem withCurrent (h : r.Compact k) (hs : s.ratchet.skipped.size ≤ k) :
    ({ r with current := s } : SessionRecord).Compact k :=
  ⟨h.previous, List.forall_mem_cons.mpr ⟨hs, fun x hx => h.skipped x (List.mem_cons_of_mem _ hx)⟩⟩

theorem promote (h : r.Compact k) (hs : s.ratchet.skipped.size ≤ k) : (r.promote s).Compact k :=
  ⟨List.length_take_le _ _,
    List.forall_mem_cons.mpr ⟨hs, fun x hx => h.skipped x (List.mem_of_mem_take hx)⟩⟩

section Run

variable [CipherSuite] {message : RatchetMessage}

/-- Encrypting puts no keys aside. -/
theorem encrypt {plaintext : Bytes} (h : r.Compact k)
    (he : r.current.encrypt plaintext = .ok message s) :
    ({ r with current := s } : SessionRecord).Compact k := by
  obtain ⟨ratchet, hr, rfl⟩ := Session.encrypt_eq_ok_iff.mp he
  obtain ⟨chain, -, rfl, -⟩ := Ratchet.exists_of_encrypt hr
  exact h.withCurrent (h.skipped r.current List.mem_cons_self)

/-- A record stays compact when a message is read: the session that reads it puts fewer keys aside
than twice the numbers there are. -/
theorem decrypt {plaintext : Bytes} {identity : PublicKey} {baseKey : Option PublicKey}
    {e e' : Entropy} (h : r.Compact k)
    (hd : r.decrypt message baseKey e = .ok (plaintext, identity, r') e') :
    r'.Compact (k + 2 * UInt32.size) := by
  obtain ⟨s, others, e₁, ho, -, hread, -⟩ := exists_of_decrypt_eq_ok hd
  have hmem : ∀ x ∈ s :: others, x.ratchet.skipped.size ≤ k := fun x hx =>
    h.skipped x (ho.tried.mem_iff.mpr hx)
  refine ⟨?_, List.forall_mem_cons.mpr ⟨?_, fun x hx => ?_⟩⟩
  · rw [← Nat.max_eq_right h.previous]
    exact ho.length_previous
  · exact Session.size_skipped_le_of_decrypt hread (hmem s List.mem_cons_self)
  · exact Nat.le_add_right_of_le (hmem x (List.mem_cons_of_mem s (ho.previous.subset hx)))

end Run

end Compact

end SessionRecord

end MultiDevice
