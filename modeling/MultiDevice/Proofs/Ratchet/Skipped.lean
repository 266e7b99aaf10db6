import MultiDevice.Proofs.Ratchet.Conversation

/-!
# How many message keys are kept for one ratchet key

A message may be `maxSkip` numbers ahead of its chain, and the keys of the messages that it
overtakes are put aside. The limit is held against the position of the chain, not against what was
put aside before: it bounds what one message puts aside, and what several messages on one ratchet
key put aside adds up.

## Main definitions

* `Ratchet.kept`: how many message keys are put aside for a ratchet key
* `Ratchet.Started`: a ratchet before its first message, of either party
* `Ratchet.Call`, `Ratchet.run`: calls on a ratchet, with any messages
* `Ratchet.jumps`: how many messages of a run overtook others on a ratchet key

## Main results

* `Ratchet.kept_after_le`: one call puts at most `maxSkip` keys aside for a ratchet key
* `Ratchet.exists_decrypt_of_kept_lt`: only a message that is read puts keys aside
* `Ratchet.Started.exists_run`: messages on a new ratchet key can overtake as many as they may
* `Ratchet.Started.kept_le_jumps_mul`: what a run keeps, by how many messages overtook others
-/

namespace MultiDevice

namespace SkippedKeys

/-- The keys that are put aside for one ratchet key. -/
def under (key : Block 32) (skipped : SkippedKeys) : SkippedKeys :=
  skipped.filter fun id _ => id.ratchetKey = key

variable {key ratchetKey messageKey : Block 32} {number : UInt32} {skipped : SkippedKeys}
variable {id : SkippedId}

theorem getElem?_under_iff : (under key skipped)[id]? = some messageKey ↔
    skipped[id]? = some messageKey ∧ id.ratchetKey = key :=
  Entries.getElem?_filter_iff.trans (and_congr_right fun _ => decide_eq_true_iff)

theorem mem_under_iff : id ∈ under key skipped ↔ id ∈ skipped ∧ id.ratchetKey = key :=
  Entries.mem_filter_iff.trans (and_congr_right fun _ => decide_eq_true_iff)

theorem under_insert (h : ratchetKey = key) :
    under key (skipped.insert ⟨ratchetKey, number⟩ messageKey) =
      (under key skipped).insert ⟨ratchetKey, number⟩ messageKey := by
  refine Std.ExtTreeMap.ext_getElem? fun id' => Option.ext fun k => ?_
  rw [getElem?_under_iff]
  by_cases hid : id' = ⟨ratchetKey, number⟩
  · simp [hid, h]
  · rw [Entries.insert_of_ne hid, Entries.insert_of_ne hid, getElem?_under_iff]

/-- What is put aside for another ratchet key does not count. -/
theorem under_insert_of_ne (h : ratchetKey ≠ key) :
    under key (skipped.insert ⟨ratchetKey, number⟩ messageKey) = under key skipped := by
  refine Std.ExtTreeMap.ext_getElem? fun id' => Option.ext fun k => ?_
  rw [getElem?_under_iff, getElem?_under_iff]
  refine and_congr_left fun hkey => ?_
  have hne : id' ≠ ⟨ratchetKey, number⟩ := fun hid =>
    h ((congrArg SkippedId.ratchetKey hid).symm.trans hkey)
  rw [Entries.insert_of_ne hne]

theorem under_erase : under key (skipped.erase id) = (under key skipped).erase id := by
  refine Std.ExtTreeMap.ext_getElem? fun id' => Option.ext fun k => ?_
  rw [getElem?_under_iff, Std.ExtTreeMap.getElem?_erase, Std.ExtTreeMap.getElem?_erase]
  split
  · simp
  · exact getElem?_under_iff.symm

end SkippedKeys

namespace Ratchet

open SkippedKeys (under)

/-- How many message keys are put aside for a ratchet key. -/
def kept (r : Ratchet) (key : Block 32) : Nat := (under key r.skipped).size

/-! ## One call -/

section Step

variable [CipherSuite]

variable {r r' : Ratchet} {m : RatchetMessage} {key : Block 32} {p : Bytes} {e e' : Entropy}

theorem size_under_skipKeys_le {remote : PublicKey} {count : Nat} {chain chain' : Chain}
    {skipped skipped' : SkippedKeys}
    (h : skipKeys remote count chain skipped = .ok (chain', skipped')) :
    (under key skipped').size ≤ (under key skipped).size + count := by
  induction count generalizing chain skipped with
  | zero =>
    cases h
    exact Nat.le_refl _
  | succ count ih =>
    unfold skipKeys at h
    split at h
    · cases h
    · next messageKey next _ =>
      have hrest := ih h
      by_cases hkey : remote.bytes = key
      · have hinsert : ((under key skipped).insert ⟨remote.bytes, chain.index⟩ messageKey).size ≤
            (under key skipped).size + 1 := Std.ExtTreeMap.size_insert_le
        rw [SkippedKeys.under_insert hkey] at hrest
        omega
      · rw [SkippedKeys.under_insert_of_ne hkey] at hrest
        omega

theorem under_skipKeys_of_ne {remote : PublicKey} {count : Nat} {chain chain' : Chain}
    {skipped skipped' : SkippedKeys} (hkey : remote.bytes ≠ key)
    (h : skipKeys remote count chain skipped = .ok (chain', skipped')) :
    under key skipped' = under key skipped := by
  induction count generalizing chain skipped with
  | zero =>
    cases h
    rfl
  | succ count ih =>
    unfold skipKeys at h
    split at h
    · cases h
    · exact (ih h).trans (SkippedKeys.under_insert_of_ne hkey)

theorem kept_skip_le {target : UInt32} (h : r.skip target = .ok r') :
    r'.kept key ≤ r.kept key + r.maxSkip.toNat := by
  unfold skip at h
  split at h
  · split at h
    · cases h
    · next hnear =>
      split at h
      · cases h
      · next chain' skipped hs =>
        cases h
        refine Nat.le_trans (size_under_skipKeys_le hs) ?_
        exact Nat.add_le_add_left (by omega) _
  · cases h
    exact Nat.le_add_right _ _

/-- Keys are put aside for the ratchet key that is followed and for no other. -/
theorem kept_skip_of_ne {target : UInt32} (h : r.skip target = .ok r')
    (hkey : ∀ remote, r.remote = some remote → remote.bytes ≠ key) : r'.kept key = r.kept key := by
  unfold skip at h
  split at h
  · next hremote _ =>
    split at h
    · cases h
    · split at h
      · cases h
      · next hs =>
        cases h
        exact congrArg _ (under_skipKeys_of_ne (hkey _ hremote) hs)
  · cases h
    rfl

theorem kept_readOnChain_le (h : r.readOnChain m = .ok (p, r')) :
    r'.kept key ≤ r.kept key + r.maxSkip.toNat := by
  obtain ⟨r₁, -, -, next, hs, -, -, rfl⟩ := exists_of_readOnChain h
  have hle : r₁.kept key ≤ r.kept key + r.maxSkip.toNat := kept_skip_le hs
  exact hle

theorem kept_readOnChain_of_ne (h : r.readOnChain m = .ok (p, r'))
    (hkey : ∀ remote, r.remote = some remote → remote.bytes ≠ key) : r'.kept key = r.kept key := by
  obtain ⟨r₁, -, -, next, hs, -, -, rfl⟩ := exists_of_readOnChain h
  have hkept : r₁.kept key = r.kept key := kept_skip_of_ne hs hkey
  exact hkept

theorem maxSkip_skip {target : UInt32} (h : r.skip target = .ok r') : r'.maxSkip = r.maxSkip := by
  obtain ⟨receiving, skipped, rfl⟩ := exists_of_skip h
  rfl

theorem maxSkip_readOnChain (h : r.readOnChain m = .ok (p, r')) : r'.maxSkip = r.maxSkip := by
  obtain ⟨r₁, -, -, next, hs, -, -, rfl⟩ := exists_of_readOnChain h
  have hmax : r₁.maxSkip = r.maxSkip := maxSkip_skip hs
  exact hmax

/-- Reading a message puts at most `maxSkip` keys aside for a ratchet key, also where it turns the
ratchet and passes over keys on two chains. -/
theorem kept_decrypt_le (h : r.decrypt m e = .ok (p, r') e') :
    r'.kept key ≤ r.kept key + r.maxSkip.toNat := by
  rcases decrypt_cases h with ⟨messageKey, -, -, rfl⟩ | ⟨-, hread⟩ |
    ⟨hf, r₁, r₂, hskip, hturn, hread⟩
  · unfold kept
    rw [SkippedKeys.under_erase]
    exact Nat.le_trans Std.ExtTreeMap.size_erase_le (Nat.le_add_right _ _)
  · exact kept_readOnChain_le hread
  · obtain ⟨hremote, hmax, -, hskipped, -⟩ := exists_of_turn hturn
    have hturned : r₂.kept key = r₁.kept key := congrArg (fun s => (under key s).size) hskipped
    -- the ratchet key that is left differs from the one that is taken up, so only one counts
    by_cases hkey : m.header.ratchetKey.bytes = key
    · have hold : ∀ remote, r.remote = some remote → remote.bytes ≠ key := by
        intro remote hr hbytes
        have hsame : remote.SamePoint m.header.ratchetKey :=
          congrArg Field25519.ofBlock (hbytes.trans hkey.symm)
        simp [follows, hr, hsame] at hf
      have hle : r'.kept key ≤ r₂.kept key + r₂.maxSkip.toNat := kept_readOnChain_le hread
      rw [hturned, kept_skip_of_ne hskip hold, hmax, maxSkip_skip hskip] at hle
      exact hle
    · have hnew : ∀ remote, r₂.remote = some remote → remote.bytes ≠ key := by
        intro remote hr
        cases hremote.symm.trans hr
        exact hkey
      rw [kept_readOnChain_of_ne hread hnew, hturned]
      exact kept_skip_le hskip

theorem maxSkip_decrypt (h : r.decrypt m e = .ok (p, r') e') : r'.maxSkip = r.maxSkip := by
  rcases decrypt_cases h with ⟨key, -, -, rfl⟩ | ⟨-, hread⟩ | ⟨-, r₁, r₂, hskip, hturn, hread⟩
  · rfl
  · exact maxSkip_readOnChain hread
  · rw [maxSkip_readOnChain hread, (exists_of_turn hturn).2.1, maxSkip_skip hskip]

end Step

/-! ## A run of calls -/

section Run

variable [CipherSuite]

/-- A call on a ratchet. A message that is handed to it can be any, and each call has its own source
of randomness. -/
inductive Call where
  /-- A plaintext is encrypted. -/
  | encrypt (plaintext : Bytes)
  /-- A message is handed over for decryption. -/
  | decrypt (m : RatchetMessage) (source : Entropy)

/-- The ratchet after a call, whether the call succeeds or fails. -/
def after (r : Ratchet) : Call → Ratchet
  | .encrypt plaintext => endState (Ratchet.encrypt plaintext) r
  | .decrypt m source =>
    match r.decrypt m source with
    | .ok (_, r') _ => r'
    | .error _ _ => r

/-- The ratchet after several calls. -/
def run (r : Ratchet) (calls : List Call) : Ratchet := calls.foldl after r

@[simp] theorem run_nil (r : Ratchet) : r.run [] = r := rfl

@[simp] theorem run_cons (r : Ratchet) (call : Call) (calls : List Call) :
    r.run (call :: calls) = (r.after call).run calls := rfl

/-- How many messages of a run overtook others on a ratchet key, so that keys were put aside. -/
def jumps (r : Ratchet) (key : Block 32) : List Call → Nat
  | [] => 0
  | call :: calls =>
    (if r.kept key < (r.after call).kept key then 1 else 0) + (r.after call).jumps key calls

/-- A call changes the sending chain alone, or is the reading of a message. -/
theorem after_cases (r : Ratchet) (call : Call) :
    (∃ sending, r.after call = { r with sending }) ∨
      ∃ m source p e, call = .decrypt m source ∧ r.decrypt m source = .ok (p, r.after call) e := by
  cases call with
  | encrypt plaintext =>
    left
    change ∃ sending, endState (Ratchet.encrypt plaintext) r = { r with sending }
    cases he : Ratchet.encrypt plaintext r with
    | ok m r' =>
      obtain ⟨chain, -, rfl, -⟩ := exists_of_encrypt he
      exact ⟨some chain, endState_of_ok he⟩
    | error err r' =>
      rw [endState_of_error he]
      unfold encrypt at he
      split at he
      · cases he
        exact ⟨r.sending, rfl⟩
      · split at he <;> cases he
        exact ⟨_, rfl⟩
  | decrypt m source =>
    cases hd : r.decrypt m source with
    | ok answer e =>
      right
      refine ⟨m, source, answer.1, e, rfl, ?_⟩
      simp only [after, hd]
    | error err e =>
      left
      refine ⟨r.sending, ?_⟩
      simp only [after, hd]

/-- One call puts at most `maxSkip` keys aside for a ratchet key. -/
theorem kept_after_le (r : Ratchet) (call : Call) (key : Block 32) :
    (r.after call).kept key ≤ r.kept key + r.maxSkip.toNat := by
  rcases after_cases r call with ⟨sending, h⟩ | ⟨m, source, p, e, -, h⟩
  · rw [h]
    exact Nat.le_add_right _ _
  · exact kept_decrypt_le h

theorem maxSkip_after (r : Ratchet) (call : Call) : (r.after call).maxSkip = r.maxSkip := by
  rcases after_cases r call with ⟨sending, h⟩ | ⟨m, source, p, e, -, h⟩
  · rw [h]
  · exact maxSkip_decrypt h

/-- Keys are put aside only when a message is read. -/
theorem exists_decrypt_of_kept_lt {r : Ratchet} {key : Block 32} {call : Call}
    (h : r.kept key < (r.after call).kept key) :
    ∃ m source p e, call = .decrypt m source ∧ r.decrypt m source = .ok (p, r.after call) e := by
  rcases after_cases r call with ⟨sending, hsame⟩ | hread
  · rw [hsame] at h
    exact absurd h (Nat.lt_irrefl _)
  · exact hread

theorem kept_run_le_add (r : Ratchet) (calls : List Call) (key : Block 32) :
    (r.run calls).kept key ≤ r.kept key + r.jumps key calls * r.maxSkip.toNat := by
  induction calls generalizing r with
  | nil => exact Nat.le_add_right _ _
  | cons call calls ih =>
    have hrest := ih (r.after call)
    rw [maxSkip_after] at hrest
    rw [run_cons, jumps, Nat.add_mul]
    split
    · have hstep := kept_after_le r call key
      omega
    · omega

end Run

/-! ## Messages that overtake as many as they may -/

section Overtaking

variable [CipherSuite]

/-- The ratchet expects the message with number `i` on the chain of a ratchet key, and holds no key
for it or for later ones. -/
structure Awaits (r : Ratchet) (key : PublicKey) (chainKey : Block 32) (i : Nat) : Prop where
  remote : r.remote = some key
  receiving : r.receiving = some (Chain.after chainKey i)
  passed : ∀ id ∈ r.skipped, id.ratchetKey = key.bytes → id.number.toNat < i

/-- Skipping on a chain puts a key aside for every number, none of which was there before. -/
theorem skipKeys_of_passed (key : PublicKey) (chainKey : Block 32) {i count : Nat}
    (hlast : i + count ≤ Chain.lastIndex.toNat) {skipped : SkippedKeys}
    (hpassed : ∀ id ∈ skipped, id.ratchetKey = key.bytes → id.number.toNat < i) :
    ∃ skipped', skipKeys key count (Chain.after chainKey i) skipped =
        .ok (Chain.after chainKey (i + count), skipped') ∧
      (∀ id ∈ skipped', id.ratchetKey = key.bytes → id.number.toNat < i + count) ∧
      (under key.bytes skipped').size = (under key.bytes skipped).size + count := by
  induction count generalizing i skipped with
  | zero => exact ⟨skipped, rfl, hpassed, rfl⟩
  | succ count ih =>
    have hindex : (Chain.after chainKey i).index.toNat = i :=
      Chain.toNat_index_after chainKey (by omega)
    have hnew : (⟨key.bytes, (Chain.after chainKey i).index⟩ : SkippedId) ∉ skipped := by
      intro hmem
      have hlt : (Chain.after chainKey i).index.toNat < i := hpassed _ hmem rfl
      omega
    have hinsert : ∀ id ∈ skipped.insert ⟨key.bytes, (Chain.after chainKey i).index⟩
        (Chain.messageKeyAt chainKey i), id.ratchetKey = key.bytes → id.number.toNat < i + 1 := by
      intro id hmem hkey
      rcases Entries.mem_insert_iff.mp hmem with rfl | hmem
      · exact Nat.lt_succ_of_le (Nat.le_of_eq hindex)
      · exact Nat.lt_succ_of_lt (hpassed id hmem hkey)
    obtain ⟨skipped', hs, hpassed', hsize⟩ := ih (by omega) hinsert
    rw [show i + 1 + count = i + (count + 1) by omega] at hs hpassed'
    refine ⟨skipped', ?_, hpassed', ?_⟩
    · rw [skipKeys, Chain.advance_after chainKey (by omega)]
      exact hs
    · rw [hsize, SkippedKeys.under_insert rfl, Std.ExtTreeMap.size_insert, if_neg, Nat.add_assoc,
        Nat.add_comm 1]
      exact fun hmem => hnew (SkippedKeys.mem_under_iff.mp hmem).1

/-- The message with number `n` on a chain, as the peer encrypts it. -/
def onChain (associatedData : Block 64) (key : PublicKey) (chainKey : Block 32) (n : Nat) :
    RatchetMessage :=
  Epoch.message ⟨key, chainKey, 0, []⟩ associatedData n []

/-- A message that is `maxSkip` ahead of the chain is read, and `maxSkip` keys are put aside. -/
theorem Awaits.exists_readOnChain (ho : OpensSealed) {r : Ratchet} {key : PublicKey}
    {chainKey : Block 32} {i n : Nat} (h : r.Awaits key chainKey i)
    (hn : n = i + r.maxSkip.toNat) (hlast : n < Chain.lastIndex.toNat) :
    (onChain r.associatedData key chainKey n).id ∉ r.skipped ∧
      ∃ r', r.readOnChain (onChain r.associatedData key chainKey n) = .ok ([], r') ∧
        r'.Awaits key chainKey (n + 1) ∧ r'.maxSkip = r.maxSkip ∧
        r'.kept key.bytes = r.kept key.bytes + r.maxSkip.toNat := by
  obtain ⟨skipped, hs, hpassed, hsize⟩ :=
    skipKeys_of_passed key chainKey (hn ▸ Nat.le_of_lt hlast) h.passed
  rw [← hn] at hs hpassed
  have hindex : (Chain.after chainKey i).index.toNat = i :=
    Chain.toNat_index_after chainKey (by omega)
  have hnumber : (UInt32.ofNat n).toNat = n :=
    Epoch.toNat_number_id ⟨key, chainKey, 0, []⟩ (Nat.le_of_lt hlast)
  have hskip : r.skip (UInt32.ofNat n) =
      .ok { r with receiving := some (Chain.after chainKey n), skipped } := by
    simp only [skip, h.remote, h.receiving, hindex, hnumber]
    rw [if_neg (by omega), show n - i = r.maxSkip.toNat by omega, hs]
  refine ⟨fun hmem => ?_,
    { r with receiving := some (Chain.after chainKey (n + 1)), skipped }, ?_,
    ⟨h.remote, rfl, fun id hmem hkey => Nat.lt_succ_of_lt (hpassed id hmem hkey)⟩, rfl, hsize⟩
  · have hlt : (UInt32.ofNat n).toNat < i := h.passed _ hmem rfl
    omega
  · have hnext : ¬ UInt32.ofNat n < (Chain.after chainKey n).index := by
      rw [Chain.index_after]
      exact UInt32.lt_irrefl _
    exact readOnChain_of_skip (m := onChain r.associatedData key chainKey n) hskip rfl hnext
      (Chain.advance_after chainKey hlast)
      (Epoch.decipher_message ho ⟨key, chainKey, 0, []⟩ r.associatedData n [])

/-- A message that overtakes others, before a run. -/
theorem exists_run_cons {r r' : Ratchet} {m : RatchetMessage} {p : Bytes} {e e' : Entropy}
    {key : Block 32} {n k : Nat} (hd : r.decrypt m e = .ok (p, r') e')
    (hkept : r.kept key < r'.kept key)
    (h : ∃ calls, r'.jumps key calls = n ∧ (r'.run calls).kept key = k) :
    ∃ calls, r.jumps key calls = n + 1 ∧ (r.run calls).kept key = k := by
  obtain ⟨calls, hjumps, hrun⟩ := h
  have hafter : r.after (.decrypt m e) = r' := by
    simp only [after, hd]
  refine ⟨.decrypt m e :: calls, ?_, ?_⟩
  · rw [jumps, hafter, hjumps, if_pos hkept, Nat.add_comm]
  · rw [run_cons, hafter, hrun]

/-- However many messages on a chain overtake others, each can overtake as many as it may. -/
theorem Awaits.exists_run (ho : OpensSealed) {r : Ratchet} {key : PublicKey} {chainKey : Block 32}
    {i : Nat} (h : r.Awaits key chainKey i) (hskip : 0 < r.maxSkip.toNat) (n : Nat)
    (hlast : i + n * (r.maxSkip.toNat + 1) ≤ Chain.lastIndex.toNat) :
    ∃ calls, r.jumps key.bytes calls = n ∧
      (r.run calls).kept key.bytes = r.kept key.bytes + n * r.maxSkip.toNat := by
  induction n generalizing r i with
  | zero => exact ⟨[], rfl, by simp⟩
  | succ n ih =>
    rw [Nat.succ_mul] at hlast
    obtain ⟨hnew, r', hread, h', hmax, hkept⟩ := h.exists_readOnChain ho rfl (by omega)
    have hrest := ih h' (by rw [hmax]; exact hskip) (by rw [hmax]; omega)
    have hfollows : r.follows key = true := by
      simp [follows, h.remote, PublicKey.SamePoint.refl]
    have hd : r.decrypt (onChain r.associatedData key chainKey (i + r.maxSkip.toNat)) .counting =
        .ok ([], r') .counting := by
      rw [decrypt_of_follows (Std.ExtTreeMap.getElem?_eq_none hnew) hfollows, hread]
      rfl
    rw [hkept, hmax, Nat.add_assoc, Nat.add_comm r.maxSkip.toNat, ← Nat.succ_mul] at hrest
    exact exists_run_cons hd (by omega) hrest

end Overtaking

/-- The ratchet of either party before its first message. -/
inductive Started [CipherSuite] : Ratchet → Prop
  /-- The ratchet of the party that sends first. -/
  | initiate {secret : Block 32} {remote : PublicKey} {maxSkip : UInt32} {ad : Block 64}
      {e e' : Entropy} {r : Ratchet} (h : Ratchet.initiate secret remote maxSkip ad e = .ok r e') :
      Started r
  /-- The ratchet of the party that answers. -/
  | respond (rootKey : Block 32) (secret : Secret) (maxSkip : UInt32) (ad : Block 64) :
      Started (Ratchet.respond rootKey secret maxSkip ad)

namespace Started

section Limit

variable [CipherSuite] {r : Ratchet}

theorem skipped_eq (h : r.Started) : r.skipped = ∅ := by
  cases h with
  | initiate h =>
    obtain ⟨own, t, -, h⟩ := bind_eq_ok_iff.mp h
    cases h
    rfl
  | respond => rfl

theorem receiving_eq (h : r.Started) : r.receiving = none := by
  cases h with
  | initiate h =>
    obtain ⟨own, t, -, h⟩ := bind_eq_ok_iff.mp h
    cases h
    rfl
  | respond => rfl

theorem kept_eq (h : r.Started) (key : Block 32) : r.kept key = 0 := by
  have hempty : under key r.skipped = ∅ := by
    refine Std.ExtTreeMap.ext_getElem? fun id => Option.ext fun k => ?_
    rw [SkippedKeys.getElem?_under_iff, h.skipped_eq, Std.ExtTreeMap.getElem?_empty]
    simp
  rw [kept, hempty, Std.ExtTreeMap.size_empty]

/-- On a ratchet key that is new to the ratchet, a first message can overtake as many as it may. -/
theorem exists_run (ho : OpensSealed) (h : r.Started) {key : PublicKey}
    (hnew : r.follows key = false) (hskip : 0 < r.maxSkip.toNat) (n : Nat)
    (hlast : n * (r.maxSkip.toNat + 1) ≤ Chain.lastIndex.toNat) :
    ∃ calls, r.jumps key.bytes calls = n ∧
      (r.run calls).kept key.bytes = n * r.maxSkip.toNat := by
  cases n with
  | zero => exact ⟨[], rfl, by rw [run_nil, h.kept_eq, Nat.zero_mul]⟩
  | succ n =>
    rw [Nat.succ_mul] at hlast
    obtain ⟨rootKey, chainKey, hroot⟩ : ∃ rootKey chainKey,
        deriveChain r.rootKey (r.secret.agree key) = (rootKey, chainKey) := ⟨_, _, rfl⟩
    have hturn := turn_of_draw hroot (Entropy.block_eq 32 (e := .counting) rfl)
    have hempty : ∀ id, id ∉ r.skipped := fun id hmem => by
      rw [h.skipped_eq] at hmem
      exact absurd hmem Std.ExtTreeMap.not_mem_empty
    have hawaits : (r.turned key rootKey chainKey
        (Entropy.counting.supply Entropy.counting.drawn 32)).Awaits key chainKey 0 :=
      ⟨rfl, rfl, fun id hmem => absurd hmem (hempty id)⟩
    obtain ⟨-, r', hread, h', hmax, hkept⟩ := hawaits.exists_readOnChain ho rfl
      (by change 0 + r.maxSkip.toNat < _; omega)
    change r'.maxSkip = r.maxSkip at hmax
    change r'.kept key.bytes = r.kept key.bytes + r.maxSkip.toNat at hkept
    have hrest := h'.exists_run ho (by rw [hmax]; exact hskip) n
      (by rw [hmax]; change 0 + r.maxSkip.toNat + 1 + _ ≤ _; omega)
    have hd : r.decrypt (onChain r.associatedData key chainKey (0 + r.maxSkip.toNat)) .counting =
        .ok ([], r') Entropy.counting.next := by
      rw [decrypt_of_not_follows (Std.ExtTreeMap.getElem?_eq_none (hempty _)) hnew,
        skip_of_receiving_eq_none h.receiving_eq,
        bind_of_ok (Draw.ofExcept_eq_ok_iff.mpr ⟨rfl, rfl⟩)]
      refine (bind_of_ok hturn).trans ?_
      exact Draw.ofExcept_eq_ok_iff.mpr ⟨hread, rfl⟩
    rw [hkept, h.kept_eq, hmax, Nat.zero_add, Nat.add_comm, ← Nat.succ_mul] at hrest
    exact exists_run_cons hd (by omega) hrest

/-- The limit holds for each message that overtakes others, not for each ratchet key. A run keeps at
most `maxSkip` keys for a ratchet key times the messages on it that overtook others, and on a
ratchet key that is new to the ratchet a run can keep exactly so many, as long as the numbers
last. -/
theorem kept_le_jumps_mul (h : r.Started) :
    (∀ calls key, (r.run calls).kept key ≤ r.jumps key calls * r.maxSkip.toNat) ∧
      (OpensSealed → ∀ key : PublicKey, r.follows key = false → 0 < r.maxSkip.toNat →
        ∀ n, n * (r.maxSkip.toNat + 1) ≤ Chain.lastIndex.toNat →
          ∃ calls, r.jumps key.bytes calls = n ∧
            (r.run calls).kept key.bytes = n * r.maxSkip.toNat) := by
  refine ⟨fun calls key => ?_, fun ho key hnew hskip n hlast => h.exists_run ho hnew hskip n hlast⟩
  have hle := kept_run_le_add r calls key
  rwa [h.kept_eq, Nat.zero_add] at hle

end Limit

section Example

attribute [local instance] CipherSuite.transparent

/-- The party that answers, with a limit of two. -/
def reader : Ratchet := .respond (Block.zero 32) (Block.zero 32) 2 (Block.zero 64)

/-- The limit of two allows six keys on one ratchet key, after three messages. -/
theorem exists_kept_reader :
    reader.Started ∧ ∃ calls, reader.jumps (Block.zero 32) calls = 3 ∧
      (reader.run calls).kept (Block.zero 32) = 6 := by
  have hstart : reader.Started := .respond _ _ _ _
  refine ⟨hstart, ?_⟩
  exact hstart.kept_le_jumps_mul.2 CipherSuite.transparent_opensSealed ⟨Block.zero 32⟩ rfl
    (by decide) 3 (by decide)

/-- Six messages of the party that sends first, of which the third and the sixth arrive. -/
def overtakers : List Call :=
  let sends : List Conversation.Event := (List.range 6).map fun i => .send .first [UInt8.ofNat i]
  let sent := (((Conversation.fresh.run sends).sent .first).map Prod.snd).reverse
  [2, 5].filterMap fun i => (sent[i]?).map fun m => .decrypt m .counting

/-- The ratchet key of those messages. -/
def overtakersKey : Block 32 := (Conversation.fresh.ratchet .first).publicKey.bytes

/-- Two messages that overtake two others each leave four keys for one ratchet key, more than the
limit of two. -/
theorem maxSkip_lt_kept :
    reader.Started ∧ reader.maxSkip = 2 ∧ (reader.run overtakers).kept overtakersKey = 4 ∧
      ¬ (reader.run overtakers).kept overtakersKey ≤ reader.maxSkip.toNat := by
  refine ⟨.respond _ _ _ _, rfl, ?_, ?_⟩
  all_goals decide +kernel

end Example

end Started

end Ratchet

end MultiDevice
