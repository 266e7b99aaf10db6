import MultiDevice.Proofs.Action
import MultiDevice.Proofs.CipherSuite
import MultiDevice.Proofs.Entries
import MultiDevice.Proofs.Ratchet.Flow

/-!
# The two ends of a flow

A ratchet writes one flow and reads another. As a reader it holds the keys of the messages that it
passed and has not read, and no others, so what it can read is determined by its position.

## Main definitions

* `Reads`, `Writes`: a ratchet follows a flow as its reader, or as its writer
* `Ratchet.WithinReach`: a message that is not too far ahead

## Main results

* `Reads.decrypt`: a reader reads what is within reach on the epochs that it has taken up
* `Reads.decryptAhead`: how it takes up the epoch ahead
* `Writes.encrypt`: the next message, unless the epoch is full
* `Ratchet.decrypt_cases`: the ways in which a message is read
* `Ratchet.withinReach_of_decrypt`: what is out of reach is refused
-/

namespace MultiDevice

variable [CipherSuite]

/-- A ratchet follows a flow as its reader, having read the messages of some names. -/
structure Reads (ad : Block 64) (f : Flow) (r : Ratchet) (read : SkippedId → Prop) : Prop where
  associatedData : r.associatedData = ad
  receiving : r.receiving = f.current.map fun c => Chain.after c.1.chainKey c.2
  remote : ∀ e, f.followed = some e → r.remote = some e.key
  skipped : ∀ id key, r.skipped[id]? = some key ↔ f.Files id key ∧ ¬ read id
  past : ∀ id, read id → ∃ key, f.Files id key

/-- A ratchet follows a flow as its writer. At the end of the numbers its chain is used up. -/
structure Writes (f : Flow) (r : Ratchet) : Prop where
  idle : f.latest = none → r.sending = none
  key : ∀ e, f.latest = some e → r.publicKey = e.key
  previousLength : ∀ e, f.latest = some e → r.previousLength = e.previousLength
  sending : ∀ e, f.latest = some e → ∃ chain, r.sending = some chain ∧
    chain.index = UInt32.ofNat e.size ∧
    (e.size < Chain.lastIndex.toNat → chain = Chain.after e.chainKey e.size)

/-- A message for which a key was put aside is read with that key, which is used up. -/
theorem Ratchet.decrypt_of_skipped {r : Ratchet} {m : RatchetMessage} {ent : Entropy}
    {key : Block 32} (hs : r.skipped[m.id]? = some key) :
    r.decrypt m ent = (do
      let plaintext ← Draw.ofExcept
        (decipher key (vouched r.associatedData m.header) m.ciphertext)
      return (plaintext, { r with skipped := r.skipped.erase m.id })) ent := by
  unfold RatchetMessage.id at hs
  unfold decrypt
  simp only [hs]
  rfl

/-- A message on the ratchet key that is followed is read on its chain, if no key was put aside for
it. -/
theorem Ratchet.decrypt_of_follows {r : Ratchet} {m : RatchetMessage} {ent : Entropy}
    (hs : r.skipped[m.id]? = none) (hf : r.follows m.header.ratchetKey = true) :
    r.decrypt m ent = Draw.ofExcept (r.readOnChain m) ent := by
  unfold RatchetMessage.id at hs
  unfold decrypt
  simp only [hs]
  have hcatch : r.catchUp m.header ent = .ok r ent := by
    unfold catchUp
    rw [if_pos hf]
    rfl
  exact bind_of_ok hcatch

/-- A message on a new ratchet key is read after what is left of the previous chain was put aside
and the key was taken up. -/
theorem Ratchet.decrypt_of_not_follows {r : Ratchet} {m : RatchetMessage} {ent : Entropy}
    (hs : r.skipped[m.id]? = none) (hf : r.follows m.header.ratchetKey = false) :
    r.decrypt m ent = (do
      let r ← Draw.ofExcept (r.skip m.header.previousLength)
      let r ← r.turn m.header.ratchetKey
      Draw.ofExcept (r.readOnChain m)) ent := by
  unfold RatchetMessage.id at hs
  unfold decrypt
  simp only [hs]
  unfold catchUp
  rw [hf, if_neg Bool.false_ne_true, bind_assoc]

theorem Ratchet.skip_of_receiving_eq_none {r : Ratchet} (h : r.receiving = none)
    (target : UInt32) : r.skip target = .ok r := by
  unfold skip
  rw [h]
  cases r.remote <;> rfl

/-- The ratchet after it took up a ratchet key of the peer, from what it derived and drew. -/
def Ratchet.turned (r : Ratchet) (remote : PublicKey) (rootKey chainKey : Block 32)
    (own : Secret) : Ratchet :=
  { r with
    secret := own
    remote := some remote
    rootKey := (deriveChain rootKey (own.agree remote)).1
    sending := some (Chain.ofKey (deriveChain rootKey (own.agree remote)).2)
    receiving := some (Chain.ofKey chainKey)
    previousLength := r.sending.elim 0 Chain.index }

theorem Ratchet.turn_of_draw {r : Ratchet} {remote : PublicKey} {rootKey chainKey : Block 32}
    (hroot : deriveChain r.rootKey (r.secret.agree remote) = (rootKey, chainKey)) {own : Secret}
    {ent ent' : Entropy} (hdraw : Entropy.block 32 ent = .ok own ent') :
    r.turn remote ent = .ok (r.turned remote rootKey chainKey own) ent' := by
  unfold turn
  rw [hroot]
  exact bind_of_ok hdraw

/-- A message is read once its chain is at its number. -/
theorem Ratchet.readOnChain_of_skip {r r' : Ratchet} {m : RatchetMessage} {chain next : Chain}
    {key : Block 32} {p : Bytes} (hs : r.skip m.header.number = .ok r')
    (hchain : r'.receiving = some chain) (hnumber : ¬ m.header.number < chain.index)
    (hadv : chain.advance = .ok key next)
    (hd : decipher key (vouched r'.associatedData m.header) m.ciphertext = .ok p) :
    r.readOnChain m = .ok (p, { r' with receiving := some next }) := by
  unfold readOnChain
  rw [hs]
  simp only [bind, Except.bind, hchain, if_neg hnumber, hadv, hd]
  rfl

theorem Ratchet.decrypt_of_decipher {key : Block 32} {data ciphertext plaintext : Bytes}
    (h : decipher key data ciphertext = .ok plaintext) :
    CipherSuite.decrypt? (deriveCipher key).1 (deriveCipher key).2 data ciphertext =
      some plaintext := by
  unfold decipher at h
  dsimp only at h
  split at h
  · next hopen =>
    cases h
    exact hopen
  · cases h

theorem Ratchet.decipher_encipher (h : OpensSealed) (key : Block 32) (data plaintext : Bytes) :
    decipher key data (encipher key data plaintext) = .ok plaintext := by
  simp only [decipher, encipher, h _ _ _ _]

theorem Epoch.decipher_message (h : OpensSealed) (e : Epoch) (ad : Block 64) (n : Nat) (p : Bytes) :
    Ratchet.decipher (Chain.messageKeyAt e.chainKey n)
      (Ratchet.vouched ad (e.message ad n p).header) (e.message ad n p).ciphertext = .ok p :=
  Ratchet.decipher_encipher h _ _ p

namespace Reads

variable {ad : Block 64} {f : Flow} {r : Ratchet} {read : SkippedId → Prop} {e : Epoch}
  {i n : Nat} {p : Bytes}

theorem receiving_of_current (hr : Reads ad f r read) (hc : f.current = some (e, i)) :
    r.receiving = some (Chain.after e.chainKey i) := by
  rw [hr.receiving, hc]
  rfl

/-- Nothing is put aside for what lies at the position of the reader or after it. -/
theorem skipped_eq_none (hr : Reads ad f r read) {id : SkippedId}
    (h : ∀ key, ¬ f.Files id key) : r.skipped[id]? = none := by
  cases hs : r.skipped[id]? with
  | none => rfl
  | some key => exact absurd ((hr.skipped id key).mp hs).1 (h key)

/-- The reader moves on in its epoch, and puts aside the keys of the messages passed over. -/
theorem skip (hr : Reads ad f r read) (hf : f.Fits) (hc : f.current = some (e, i)) (hin : i ≤ n)
    (hn : n ≤ e.size) (hreach : n ≤ i + r.maxSkip.toNat) :
    ∃ skipped, r.skip (UInt32.ofNat n) =
        .ok { r with receiving := some (Chain.after e.chainKey n), skipped } ∧
      Reads ad (f.moveTo n) { r with receiving := some (Chain.after e.chainKey n), skipped }
        read := by
  have hlast : Chain.lastIndex.toNat = 4294967295 := rfl
  have hshort := hf.short e (Flow.mem_epochs_of_current hc)
  have hrem := hr.remote e (Flow.followed_of_current hc)
  have hrec := hr.receiving_of_current hc
  have hnat : (UInt32.ofNat n).toNat = n := by
    rw [UInt32.toNat_ofNat']
    omega
  have hindex := Chain.toNat_index_after e.chainKey (n := i) (by omega)
  -- the chain steps from `i` to `n` and files the key of each number between
  obtain ⟨skipped, hs, hget⟩ := Ratchet.skipKeys_after e.key e.chainKey
    (by omega : i + (n - i) ≤ Chain.lastIndex.toNat) r.skipped
  rw [show i + (n - i) = n by omega] at hs hget
  refine ⟨skipped, ?_, ?_⟩
  · simp only [Ratchet.skip, hrem, hrec, hindex, hnat, hs]
    rw [if_neg (by omega)]
  · refine ⟨hr.associatedData, ?_, ?_, fun id key => ?_, fun id hid => ?_⟩
    · rw [Flow.current_moveTo hc]
      rfl
    · intro e' he'
      rw [Flow.followed_moveTo] at he'
      exact hr.remote e' he'
    · rw [Flow.files_moveTo hc hin hn]
      rw [hget]
      by_cases hid : id.ratchetKey = e.key.bytes ∧ i ≤ id.number.toNat ∧ id.number.toNat < n
      · obtain ⟨hk, hi, hlt⟩ := hid
        have hname : e.id id.number.toNat = id := by
          rw [Epoch.id, ← hk, UInt32.ofNat_toNat]
        have hnew : ∀ key, ¬ f.Files id key := fun key => by
          rw [← hname]
          exact hf.not_files_of_current hc hi (by omega)
        have hunread : ¬ read id := fun h => (hr.past id h).elim fun key => hnew key
        rw [if_pos ⟨hk, hi, hlt⟩, Option.some.injEq]
        constructor
        · intro hkey
          exact ⟨.inr ⟨_, hi, hlt, hname, hkey⟩, hunread⟩
        · rintro ⟨hfile | ⟨j, -, hj, rfl, hkey⟩, -⟩
          · exact absurd hfile (hnew key)
          · rw [e.toNat_number_id (by omega)]
            exact hkey
      · rw [if_neg hid, hr.skipped]
        constructor
        · exact fun h => ⟨.inl h.1, h.2⟩
        · rintro ⟨hfile | ⟨j, hj, hjn, rfl, -⟩, hunread⟩
          · exact ⟨hfile, hunread⟩
          · refine absurd ⟨rfl, ?_⟩ hid
            rw [e.toNat_number_id (by omega)]
            exact ⟨hj, hjn⟩
    · obtain ⟨key, hk⟩ := hr.past id hid
      exact ⟨key, (Flow.files_moveTo hc hin hn).mpr (.inl hk)⟩

/-- The reader reads a message at its position or after it. -/
theorem readOnChain (ho : OpensSealed) (hr : Reads ad f r read) (hf : f.Fits)
    (hc : f.current = some (e, i)) (hin : i ≤ n) (hn : n < e.size)
    (hreach : n ≤ i + r.maxSkip.toNat) :
    ∃ receiving skipped,
      r.readOnChain (e.message ad n p) = .ok (p, { r with receiving, skipped }) ∧
      Reads ad (f.moveTo (n + 1)) { r with receiving, skipped }
        fun id => read id ∨ id = e.id n := by
  have hshort := hf.short e (Flow.mem_epochs_of_current hc)
  obtain ⟨skipped, hs, hr'⟩ := hr.skip hf hc hin (Nat.le_of_lt hn) hreach
  have hf' := hf.moveTo (i := n) fun e' he' => by
    rw [Flow.followed_of_current hc] at he'
    cases he'
    exact Nat.le_of_lt hn
  have hc' := Flow.current_moveTo hc n
  refine ⟨some (Chain.after e.chainKey (n + 1)), skipped, ?_, ?_⟩
  · have hnumber : ¬ UInt32.ofNat n < (Chain.after e.chainKey n).index := by
      rw [Chain.index_after]
      exact UInt32.lt_irrefl _
    refine Ratchet.readOnChain_of_skip (m := e.message ad n p) hs rfl hnumber
      (Chain.advance_after e.chainKey (by omega)) ?_
    change Ratchet.decipher _ (Ratchet.vouched r.associatedData _) _ = _
    rw [hr.associatedData, e.decipher_message ho]
  · have hmove : ∀ id key, (f.moveTo (n + 1)).Files id key ↔ (f.moveTo n).Files id key ∨
        e.id n = id ∧ Chain.messageKeyAt e.chainKey n = key := by
      intro id key
      rw [← Flow.moveTo_moveTo f n, Flow.files_moveTo hc' (Nat.le_succ n) hn]
      refine or_congr_right ⟨?_, fun h => ⟨n, Nat.le_refl n, Nat.lt_succ_self n, h⟩⟩
      rintro ⟨j, hj, hjn, h⟩
      rw [show j = n by omega] at h
      exact h
    have hnew : ∀ key, ¬ (f.moveTo n).Files (e.id n) key := fun key =>
      hf'.not_files_of_current hc' (Nat.le_refl n) hn
    refine ⟨hr'.associatedData, ?_, ?_, fun id key => ?_, ?_⟩
    · rw [Flow.current_moveTo hc]
      rfl
    · intro e' he'
      rw [Flow.followed_moveTo] at he'
      exact hr.remote e' he'
    · rw [hmove, not_or]
      refine (hr'.skipped id key).trans ⟨?_, ?_⟩
      · rintro ⟨hfile, hunread⟩
        refine ⟨.inl hfile, hunread, ?_⟩
        rintro rfl
        exact hnew key hfile
      · rintro ⟨hfile | ⟨rfl, -⟩, hunread, hne⟩
        · exact ⟨hfile, hunread⟩
        · exact absurd rfl hne
    · rintro id (hid | rfl)
      · obtain ⟨key, hk⟩ := hr'.past id hid
        exact ⟨key, (hmove id key).mpr (.inl hk)⟩
      · exact ⟨_, (hmove _ _).mpr (.inr ⟨rfl, rfl⟩)⟩

/-- The reader reads a message that it passed over, with the key put aside for it. -/
theorem readSkipped (ho : OpensSealed) (hr : Reads ad f r read) (hp : f.Passes e n)
    (hunread : ¬ read (e.id n)) (ent : Entropy) :
    ∃ skipped, r.decrypt (e.message ad n p) ent = .ok (p, { r with skipped }) ent ∧
      Reads ad f { r with skipped } fun id => read id ∨ id = e.id n := by
  have hfile : f.Files (e.id n) (Chain.messageKeyAt e.chainKey n) := ⟨e, n, hp, rfl, rfl⟩
  have hget := (hr.skipped _ _).mpr ⟨hfile, hunread⟩
  refine ⟨r.skipped.erase (e.id n), ?_, hr.associatedData, hr.receiving, hr.remote,
    fun id key => ?_, ?_⟩
  · have hkey : r.skipped[(e.message ad n p).id]? = some (Chain.messageKeyAt e.chainKey n) := hget
    unfold RatchetMessage.id at hkey
    unfold Ratchet.decrypt
    simp only [hkey]
    change (Draw.ofExcept (Ratchet.decipher _ (Ratchet.vouched r.associatedData _) _) >>= _) ent = _
    rw [hr.associatedData, e.decipher_message ho]
    rfl
  · change (r.skipped.erase (e.id n))[id]? = some key ↔ _
    rw [Std.ExtTreeMap.getElem?_erase, not_or]
    simp only [Std.LawfulEqCmp.compare_eq_iff_eq]
    by_cases hid : e.id n = id
    · rw [if_pos hid]
      simp [hid]
    · rw [if_neg hid, hr.skipped]
      constructor
      · exact fun h => ⟨h.1, h.2, fun h' => hid h'.symm⟩
      · exact fun h => ⟨h.1, h.2.1⟩
  · rintro id (hid | rfl)
    · exact hr.past id hid
    · exact ⟨_, hfile⟩

/-- On the epochs that it has taken up, the reader reads what it has not read, unless this is too
far ahead. -/
theorem decrypt (ho : OpensSealed) (hr : Reads ad f r read) (hf : f.Fits)
    (he : e ∈ f.passed ∨ f.followed = some e) (hn : n < e.size) (hunread : ¬ read (e.id n))
    (hreach : ∀ i, f.current = some (e, i) → n ≤ i + r.maxSkip.toNat) (ent : Entropy) :
    ∃ j receiving skipped,
      r.decrypt (e.message ad n p) ent = .ok (p, { r with receiving, skipped }) ent ∧
      (f.moveTo j).Fits ∧
      Reads ad (f.moveTo j) { r with receiving, skipped } fun id => read id ∨ id = e.id n := by
  by_cases hp : f.Passes e n
  · obtain ⟨skipped, hd, hr'⟩ := hr.readSkipped ho hp hunread ent
    obtain ⟨j, hj⟩ := f.exists_moveTo_eq
    refine ⟨j, r.receiving, skipped, hd, ?_, ?_⟩
    · rw [hj]
      exact hf
    · rw [hj]
      exact hr'
  · obtain ⟨i, hc⟩ := Flow.followed_eq_some_iff.mp <| he.resolve_left fun h => hp ⟨hn, .inl h⟩
    have hin : i ≤ n := Nat.le_of_not_lt fun h => hp ((hf.passes_current_iff hc).mpr h)
    obtain ⟨receiving, skipped, hd, hr'⟩ := hr.readOnChain ho hf hc hin hn (hreach i hc) (p := p)
    refine ⟨n + 1, receiving, skipped, ?_, hf.moveTo fun e' he' => ?_, hr'⟩
    · have hnone : r.skipped[e.id n]? = none :=
        hr.skipped_eq_none fun key => hf.not_files_of_current hc hin hn
      have hfollows : r.follows e.key = true := by
        simp [Ratchet.follows, hr.remote e (Flow.followed_of_current hc), PublicKey.SamePoint.refl]
      rw [Ratchet.decrypt_of_follows hnone hfollows, hd]
      rfl
    · rw [Flow.followed_of_current hc] at he'
      cases he'
      exact hn

/-- The reader puts aside what is left of its epoch. -/
theorem skipToEnd (hr : Reads ad f r read) (hf : f.Fits)
    (hreach : ∀ c i, f.current = some (c, i) → c.size ≤ i + r.maxSkip.toNat) {count : UInt32}
    (hcount : count.toNat = f.followed.elim 0 Epoch.size) :
    ∃ receiving skipped j, r.skip count = .ok { r with receiving, skipped } ∧
      (f.moveTo j).Fits ∧ Reads ad (f.moveTo j) { r with receiving, skipped } read ∧
      ∀ c i, (f.moveTo j).current = some (c, i) → i = c.size := by
  cases hc : f.current with
  | none =>
    obtain ⟨j, hj⟩ := f.exists_moveTo_eq
    have hrec : r.receiving = none := by rw [hr.receiving, hc]; rfl
    refine ⟨r.receiving, r.skipped, j, ?_, ?_, ?_, ?_⟩
    · exact Ratchet.skip_of_receiving_eq_none hrec count
    · rw [hj]
      exact hf
    · rw [hj]
      exact hr
    · rw [hj, hc]
      rintro c i ⟨⟩
  | some c =>
    obtain ⟨c, i⟩ := c
    have hsize : count = UInt32.ofNat c.size := by
      rw [Flow.followed_of_current hc] at hcount
      rw [← UInt32.ofNat_toNat (x := count), hcount]
      rfl
    obtain ⟨skipped, hs, hr'⟩ := hr.skip hf hc (hf.position c i hc) (Nat.le_refl _) (hreach c i hc)
    rw [hsize]
    refine ⟨_, skipped, c.size, hs, hf.moveTo fun e' he' => ?_, hr', fun c' i' hc' => ?_⟩
    · rw [Flow.followed_of_current hc] at he'
      cases he'
      exact Nat.le_refl _
    · rw [Flow.current_moveTo hc] at hc'
      cases hc'
      rfl

/-- The reader takes up the epoch ahead, once its chain was derived. -/
theorem takeUp (hr : Reads ad f r read) (ha : f.ahead = some e)
    (hend : ∀ c i, f.current = some (c, i) → i = c.size) {r' : Ratchet}
    (had : r'.associatedData = r.associatedData) (hskipped : r'.skipped = r.skipped)
    (hremote : r'.remote = some e.key) (hreceiving : r'.receiving = some (Chain.ofKey e.chainKey)) :
    Reads ad f.takeUp r' read := by
  refine ⟨had.trans hr.associatedData, ?_, fun e' he' => ?_, fun id key => ?_, fun id hid => ?_⟩
  · rw [hreceiving, Flow.takeUp, ha]
    rfl
  · rw [Flow.followed_takeUp, ha] at he'
    cases he'
    exact hremote
  · rw [hskipped, Flow.files_takeUp hend]
    exact hr.skipped id key
  · obtain ⟨key, hk⟩ := hr.past id hid
    exact ⟨key, (Flow.files_takeUp hend).mpr hk⟩

/-- The reader reads a message of the epoch ahead: it puts aside what is left of its own epoch,
takes up the next one and draws a new ratchet key. -/
theorem decryptAhead (ho : OpensSealed) (hr : Reads ad f r read) (hf : f.Fits)
    (ha : f.ahead = some e) (hn : n < e.size)
    (hprevious : e.previousLength.toNat = f.followed.elim 0 Epoch.size)
    (hunseen : ∀ k, r.remote = some k → ¬ k.SamePoint e.key)
    (hleft : ∀ c i, f.current = some (c, i) → c.size ≤ i + r.maxSkip.toNat)
    (hreach : n ≤ r.maxSkip.toNat) {rootKey : Block 32}
    (hroot : Ratchet.deriveChain r.rootKey (r.secret.agree e.key) = (rootKey, e.chainKey))
    {own : Secret} {ent ent' : Entropy} (hdraw : Entropy.block 32 ent = .ok own ent') :
    ∃ j receiving skipped,
      r.decrypt (e.message ad n p) ent =
        .ok (p, { r.turned e.key rootKey e.chainKey own with receiving, skipped }) ent' ∧
      (f.takeUp.moveTo j).Fits ∧
      Reads ad (f.takeUp.moveTo j)
        { r.turned e.key rootKey e.chainKey own with receiving, skipped }
        fun id => read id ∨ id = e.id n := by
  -- the invariant goes through the end of the old epoch, the new one and its chain
  obtain ⟨receiving, skipped, j, hs, hf', hr', hend⟩ := hr.skipToEnd hf hleft hprevious
  have hc : (f.moveTo j).takeUp.current = some (e, 0) := by
    rw [Flow.takeUp_moveTo, Flow.takeUp, ha]
    rfl
  have hup : Reads ad (f.moveTo j).takeUp
      (Ratchet.turned { r with receiving, skipped } e.key rootKey e.chainKey own) read :=
    hr'.takeUp ha hend rfl rfl rfl rfl
  obtain ⟨receiving', skipped', hd, hr''⟩ := hup.readOnChain ho hf'.takeUp hc (Nat.zero_le n) hn
    (by rw [Nat.zero_add]; exact hreach) (p := p)
  rw [Flow.takeUp_moveTo] at hr''
  refine ⟨n + 1, receiving', skipped', ?_, ?_, hr''⟩
  · have hnone : r.skipped[e.id n]? = none :=
      hr.skipped_eq_none fun key => hf.not_files_of_ahead ha hn
    have hfollows : r.follows e.key = false := by
      cases hrem : r.remote with
      | none => simp [Ratchet.follows, hrem]
      | some k => simp [Ratchet.follows, hrem, hunseen k hrem]
    rw [Ratchet.decrypt_of_not_follows hnone hfollows]
    change (Draw.ofExcept (r.skip e.previousLength) >>= _) ent = _
    rw [hs, bind_of_ok (Draw.ofExcept_eq_ok_iff.mpr ⟨rfl, rfl⟩)]
    have hturn := Ratchet.turn_of_draw (r := { r with receiving, skipped }) hroot hdraw
    refine (bind_of_ok hturn).trans ?_
    exact Draw.ofExcept_eq_ok_iff.mpr ⟨hd, rfl⟩
  · refine hf.takeUp.moveTo fun e' he' => ?_
    rw [Flow.followed_takeUp, ha] at he'
    cases he'
    exact hn

end Reads

namespace Ratchet

variable {r r' : Ratchet} {m : RatchetMessage}

/-- A message that is not too far ahead: its key was put aside, or the messages to be passed over
are few, on the ratchet key that is followed or on both sides of a change of ratchet key. -/
def WithinReach (r : Ratchet) (m : RatchetMessage) : Prop :=
  m.id ∈ r.skipped ∨
  (r.follows m.header.ratchetKey = true ∧ ∃ chain, r.receiving = some chain ∧
    m.header.number.toNat ≤ chain.index.toNat + r.maxSkip.toNat) ∨
  (r.follows m.header.ratchetKey = false ∧
    (∀ chain, r.receiving = some chain →
      m.header.previousLength.toNat ≤ chain.index.toNat + r.maxSkip.toNat) ∧
    m.header.number.toNat ≤ r.maxSkip.toNat)

theorem le_of_skip {target : UInt32} (h : r.skip target = .ok r')
    {remote : PublicKey} {chain : Chain} (hremote : r.remote = some remote)
    (hreceiving : r.receiving = some chain) :
    target.toNat ≤ chain.index.toNat + r.maxSkip.toNat := by
  unfold skip at h
  rw [hremote, hreceiving] at h
  simp only at h
  split at h
  · cases h
  · omega

theorem exists_of_skip {target : UInt32} (h : r.skip target = .ok r') :
    ∃ receiving skipped, r' = { r with receiving, skipped } := by
  unfold skip at h
  split at h
  · split at h
    · cases h
    · split at h <;> cases h
      exact ⟨_, _, rfl⟩
  · cases h
    exact ⟨r.receiving, r.skipped, rfl⟩

/-- Sending moves the sending chain on and changes nothing else. -/
theorem exists_of_encrypt {plaintext : Bytes} (h : r.encrypt plaintext = .ok m r') :
    ∃ chain messageKey, r' = { r with sending := some chain } ∧
      m.ciphertext =
        encipher messageKey (vouched r.associatedData m.header) plaintext := by
  unfold encrypt at h
  split at h
  · cases h
  · split at h
    · cases h
    · cases h
      exact ⟨_, _, rfl, rfl⟩

/-- Reading on a chain skips to the message and moves the chain on past it. -/
theorem exists_of_readOnChain {p : Bytes} (h : r.readOnChain m = .ok (p, r')) :
    ∃ r₁ chain key next, r.skip m.header.number = .ok r₁ ∧ r₁.receiving = some chain ∧
      decipher key (vouched r.associatedData m.header) m.ciphertext = .ok p ∧
      r' = { r₁ with receiving := some next } := by
  unfold readOnChain at h
  cases hs : r.skip m.header.number with
  | error err =>
    rw [hs] at h
    cases h
  | ok r₁ =>
    obtain ⟨receiving, skipped, rfl⟩ := exists_of_skip hs
    rw [hs] at h
    cases receiving with
    | none => cases h
    | some chain =>
      dsimp only [bind, Except.bind] at h
      split at h
      · cases h
      · cases hadv : chain.advance with
        | error err chain' =>
          rw [hadv] at h
          cases h
        | ok key chain' =>
          rw [hadv] at h
          cases hd : decipher key (vouched r.associatedData m.header) m.ciphertext with
          | error err =>
            simp only [hd] at h
            cases h
          | ok plaintext =>
            simp only [hd] at h
            cases h
            exact ⟨_, chain, key, chain', rfl, rfl, hd, rfl⟩

theorem exists_of_turn {remote : PublicKey} {ent ent' : Entropy}
    (h : r.turn remote ent = .ok r' ent') :
    r'.remote = some remote ∧ r'.maxSkip = r.maxSkip ∧ r'.associatedData = r.associatedData ∧
      r'.skipped = r.skipped ∧ ∃ key, r'.receiving = some (Chain.ofKey key) := by
  unfold turn at h
  obtain ⟨own, t, -, h⟩ := bind_eq_ok_iff.mp h
  cases h
  exact ⟨rfl, rfl, rfl, rfl, _, rfl⟩

/-- A message is read with the key put aside for it, on the chain of the ratchet key that is
followed, or on the chain of a new one, which is taken up after the rest of the old one was
skipped. -/
theorem decrypt_cases {p : Bytes} {ent ent' : Entropy} (h : r.decrypt m ent = .ok (p, r') ent') :
    (∃ key, r.skipped[m.id]? = some key ∧
        decipher key (vouched r.associatedData m.header) m.ciphertext = .ok p ∧
        r' = { r with skipped := r.skipped.erase m.id }) ∨
      (r.follows m.header.ratchetKey = true ∧ r.readOnChain m = .ok (p, r')) ∨
      (r.follows m.header.ratchetKey = false ∧
        ∃ r₁ r₂, r.skip m.header.previousLength = .ok r₁ ∧
          r₁.turn m.header.ratchetKey ent = .ok r₂ ent' ∧ r₂.readOnChain m = .ok (p, r')) := by
  cases hs : r.skipped[m.id]? with
  | some key =>
    left
    rw [decrypt_of_skipped hs] at h
    obtain ⟨p', t, hd, h⟩ := bind_eq_ok_iff.mp h
    cases h
    exact ⟨key, rfl, (Draw.ofExcept_eq_ok_iff.mp hd).1, rfl⟩
  | none =>
    right
    cases hf : r.follows m.header.ratchetKey with
    | true =>
      rw [decrypt_of_follows hs hf] at h
      exact .inl ⟨rfl, (Draw.ofExcept_eq_ok_iff.mp h).1⟩
    | false =>
      rw [decrypt_of_not_follows hs hf] at h
      obtain ⟨r₁, t₁, hskip, h⟩ := bind_eq_ok_iff.mp h
      obtain ⟨r₂, t₂, hturn, hread⟩ := bind_eq_ok_iff.mp h
      obtain ⟨hs₁, rfl⟩ := Draw.ofExcept_eq_ok_iff.mp hskip
      obtain ⟨hr₂, rfl⟩ := Draw.ofExcept_eq_ok_iff.mp hread
      exact .inr ⟨rfl, r₁, r₂, hs₁, hturn, hr₂⟩

/-- What is read was encrypted together with the associated data of the reader. -/
theorem exists_decipher_of_decrypt {p : Bytes} {ent ent' : Entropy}
    (h : r.decrypt m ent = .ok (p, r') ent') :
    ∃ key, decipher key (vouched r.associatedData m.header) m.ciphertext = .ok p := by
  rcases decrypt_cases h with ⟨key, -, hd, -⟩ | ⟨-, hread⟩ | ⟨-, r₁, r₂, hskip, hturn, hread⟩
  · exact ⟨key, hd⟩
  · obtain ⟨-, -, key, -, -, -, hd, -⟩ := exists_of_readOnChain hread
    exact ⟨key, hd⟩
  · obtain ⟨-, -, had, -⟩ := exists_of_turn hturn
    obtain ⟨receiving, skipped, rfl⟩ := exists_of_skip hskip
    obtain ⟨-, -, key, -, -, -, hd, -⟩ := exists_of_readOnChain hread
    rw [had] at hd
    exact ⟨key, hd⟩

/-- What is out of reach is refused. -/
theorem withinReach_of_decrypt {p : Bytes} {ent ent' : Entropy}
    (h : r.decrypt m ent = .ok (p, r') ent') (hremote : r.remote = none → r.receiving = none) :
    r.WithinReach m := by
  rcases decrypt_cases h with ⟨key, hs, -⟩ | ⟨hf, hread⟩ | ⟨hf, r₁, r₂, hskip, hturn, hread⟩
  · exact .inl (Entries.mem_of_getElem? hs)
  · obtain ⟨r', chain', -, -, hskip, hrec', -⟩ := exists_of_readOnChain hread
    refine .inr (.inl ⟨hf, ?_⟩)
    cases hrem : r.remote with
    | none => simp [follows, hrem] at hf
    | some remote =>
      cases hrec : r.receiving with
      | none =>
        rw [skip_of_receiving_eq_none hrec] at hskip
        cases hskip
        rw [hrec] at hrec'
        cases hrec'
      | some chain => exact ⟨chain, rfl, le_of_skip hskip hrem hrec⟩
  · obtain ⟨hrem₂, hmax, -, -, key, hrec₂⟩ := exists_of_turn hturn
    obtain ⟨r₃, chain, -, -, hskip', -⟩ := exists_of_readOnChain hread
    obtain ⟨receiving, skipped, hr₁⟩ := exists_of_skip hskip
    have hmax₁ : r₁.maxSkip = r.maxSkip := by rw [hr₁]
    refine .inr (.inr ⟨hf, fun chain hrec => ?_, ?_⟩)
    · cases hrem : r.remote with
      | none =>
        rw [hremote hrem] at hrec
        cases hrec
      | some remote => exact le_of_skip hskip hrem hrec
    · have hle := le_of_skip hskip' hrem₂ hrec₂
      rw [hmax, hmax₁] at hle
      exact Nat.le_trans hle (Nat.le_of_eq (Nat.zero_add _))

end Ratchet

namespace Reads

variable {ad : Block 64} {f : Flow} {r : Ratchet} {read : SkippedId → Prop} {e : Epoch}
  {i n : Nat} {p : Bytes}

theorem receiving_eq_none (hr : Reads ad f r read) (h : r.remote = none) : r.receiving = none := by
  cases hc : f.current with
  | none => rw [hr.receiving, hc]; rfl
  | some c =>
    rw [hr.remote c.1 (Flow.followed_of_current hc)] at h
    cases h

/-- What is within reach in the epoch that the reader is in is not too far ahead. -/
theorem le_of_withinReach (hr : Reads ad f r read) (hf : f.Fits) (hc : f.current = some (e, i))
    (hn : n < e.size) (h : r.WithinReach (e.message ad n p)) : n ≤ i + r.maxSkip.toNat := by
  have hshort := hf.short e (Flow.mem_epochs_of_current hc)
  have hlast : Chain.lastIndex.toNat = 4294967295 := rfl
  rcases h with h | ⟨-, chain, hrec, h⟩ | ⟨h, -⟩
  · obtain ⟨key, hk⟩ := Entries.exists_of_mem h
    by_cases hin : i ≤ n
    · exact absurd ((hr.skipped _ _).mp hk).1 (hf.not_files_of_current hc hin hn)
    · omega
  · rw [hr.receiving_of_current hc] at hrec
    cases hrec
    rw [Chain.toNat_index_after e.chainKey (Nat.le_trans (hf.position e i hc) hshort)] at h
    have hnumber := e.toNat_number_id (n := n) (by omega)
    exact Nat.le_trans (Nat.le_of_eq hnumber.symm) h
  · have hfollows : r.follows e.key = true := by
      simp [Ratchet.follows, hr.remote e (Flow.followed_of_current hc), PublicKey.SamePoint.refl]
    rw [show (e.message ad n p).header.ratchetKey = e.key from rfl, hfollows] at h
    cases h

/-- What is within reach in the epoch ahead is not too far ahead on either side of the change. -/
theorem le_of_withinReach_ahead (hr : Reads ad f r read) (hf : f.Fits) (ha : f.ahead = some e)
    (hn : n < e.size) (hprevious : e.previousLength.toNat = f.followed.elim 0 Epoch.size)
    (hunseen : ∀ k, r.remote = some k → ¬ k.SamePoint e.key)
    (h : r.WithinReach (e.message ad n p)) :
    (∀ c i, f.current = some (c, i) → c.size ≤ i + r.maxSkip.toNat) ∧ n ≤ r.maxSkip.toNat := by
  have hshort := hf.short e (Flow.mem_epochs_of_ahead ha)
  have hlast : Chain.lastIndex.toNat = 4294967295 := rfl
  rcases h with h | ⟨h, -⟩ | ⟨-, hleft, h⟩
  · obtain ⟨key, hk⟩ := Entries.exists_of_mem h
    exact absurd ((hr.skipped _ _).mp hk).1 (hf.not_files_of_ahead ha hn)
  · change r.follows e.key = true at h
    cases hrem : r.remote with
    | none => simp [Ratchet.follows, hrem] at h
    | some k => simp [Ratchet.follows, hrem, hunseen k hrem] at h
  · refine ⟨fun c i hc => ?_, ?_⟩
    · have hc' := hleft _ (hr.receiving_of_current hc)
      rw [Chain.toNat_index_after c.chainKey (Nat.le_trans (hf.position c i hc)
        (hf.short c (Flow.mem_epochs_of_current hc)))] at hc'
      change e.previousLength.toNat ≤ _ at hc'
      rw [hprevious, Flow.followed_of_current hc] at hc'
      exact hc'
    · have hnumber := e.toNat_number_id (n := n) (by omega)
      exact Nat.le_trans (Nat.le_of_eq hnumber.symm) h

/-- A reader that has read nothing. -/
theorem start (had : r.associatedData = ad) (hreceiving : r.receiving = none)
    (hskipped : r.skipped = ∅) : Reads ad Flow.start r fun _ => False := by
  refine ⟨had, hreceiving, fun e he => (nomatch he), fun id key => ?_, fun id hid => hid.elim⟩
  rw [hskipped, Std.ExtTreeMap.getElem?_empty]
  exact ⟨fun h => (nomatch h), fun h => absurd h.1 Flow.not_files_start⟩

/-- What the writer sends leaves the reader where it is. -/
theorem push (hr : Reads ad f r read) (hf : f.Fits) (plaintext : Bytes) :
    Reads ad (f.push plaintext) r read := by
  refine ⟨hr.associatedData, ?_, fun e he => ?_, fun id key => ?_, fun id hid => ?_⟩
  · rw [hr.receiving]
    rcases f.current_push plaintext with hc | ⟨e, i, hc, hc'⟩
    · rw [hc]
    · rw [hc, hc']
      rfl
  · obtain ⟨i, hi⟩ := Flow.followed_eq_some_iff.mp he
    rcases f.current_push plaintext with hc | ⟨e', i', hc, hc'⟩
    · exact hr.remote e (Flow.followed_of_current (hc ▸ hi))
    · rw [hc'] at hi
      cases hi
      exact hr.remote e' (Flow.followed_of_current hc)
  · rw [hf.files_push]
    exact hr.skipped id key
  · obtain ⟨key, hk⟩ := hr.past id hid
    exact ⟨key, (hf.files_push plaintext).mpr hk⟩

/-- A new epoch ahead leaves the reader where it is. -/
theorem opened (hr : Reads ad f r read) (e : Epoch) : Reads ad (f.opened e) r read :=
  ⟨hr.associatedData, hr.receiving, hr.remote, hr.skipped, hr.past⟩

end Reads

namespace Writes

variable {ad : Block 64} {f : Flow} {r : Ratchet} {e : Epoch} {p : Bytes}

theorem start (h : r.sending = none) : Writes Flow.start r :=
  ⟨fun _ => h, fun _ he => (nomatch he), fun _ he => (nomatch he), fun _ he => (nomatch he)⟩

/-- The writer at the start of a new epoch. -/
theorem opened (f : Flow) (he : e.plaintexts = []) (hkey : r.publicKey = e.key)
    (hprevious : r.previousLength = e.previousLength)
    (hsending : r.sending = some (Chain.ofKey e.chainKey)) : Writes (f.opened e) r := by
  have hsize : e.size = 0 := by
    rw [Epoch.size, he]
    rfl
  refine ⟨fun h => absurd h (Option.some_ne_none e), fun e' he' => ?_, fun e' he' => ?_,
    fun e' he' => ?_⟩
  all_goals
    rw [Flow.latest_opened] at he'
    cases he'
  · exact hkey
  · exact hprevious
  · rw [hsize]
    exact ⟨_, hsending, rfl, fun _ => rfl⟩

/-- The writer knows how much it wrote when the reader is in its latest epoch. -/
theorem toNat_length (hw : Writes f r) (hf : f.Fits) (ha : f.ahead = none) :
    (r.sending.elim 0 Chain.index).toNat = f.followed.elim 0 Epoch.size := by
  have hl : f.latest = f.followed := by
    rw [Flow.latest, ha]
    rfl
  cases hc : f.followed with
  | none =>
    rw [hw.idle (hl.trans hc)]
    rfl
  | some c =>
    obtain ⟨chain, hs, hindex, -⟩ := hw.sending c (hl.trans hc)
    rw [hs]
    change chain.index.toNat = c.size
    rw [hindex]
    exact c.toNat_number_id (hf.short c (Flow.mem_epochs_of_latest (hl.trans hc)))

/-- The writer goes on with the next message of its epoch, unless it has no epoch or its epoch is
full. -/
theorem encrypt (hw : Writes f r) (had : r.associatedData = ad) (hf : f.Fits) (p : Bytes) :
    (∃ err sending, r.encrypt p = .error err { r with sending } ∧ Writes f { r with sending }) ∨
      ∃ e sending, f.latest = some e ∧ e.size < Chain.lastIndex.toNat ∧
        r.encrypt p = .ok (e.message ad e.size p) { r with sending } ∧
        Writes (f.push p) { r with sending } := by
  cases hl : f.latest with
  | none =>
    have hs := hw.idle hl
    refine .inl ⟨.noSendingChain, none, ?_, ?_⟩
    · unfold Ratchet.encrypt
      rw [hs]
      obtain ⟨_, _, _, _, _, _, _, _, _⟩ := r
      cases hs
      rfl
    · obtain ⟨_, _, _, _, _, _, _, _, _⟩ := r
      cases hs
      exact hw
  | some e =>
    obtain ⟨chain, hs, hindex, hchain⟩ := hw.sending e hl
    have hkey := hw.key e hl
    have hprevious := hw.previousLength e hl
    by_cases hroom : e.size < Chain.lastIndex.toNat
    · right
      rw [hchain hroom] at hs
      refine ⟨e, some (Chain.after e.chainKey (e.size + 1)), rfl, hroom, ?_, ?_⟩
      · unfold Ratchet.encrypt
        rw [hs]
        simp only [Chain.advance_after e.chainKey hroom, Chain.index_after, hkey, hprevious, had]
        rfl
      · have hl' := f.latest_push hl p
        refine ⟨fun h => ?_, fun e' he' => ?_, fun e' he' => ?_, fun e' he' => ?_⟩
        · rw [hl'] at h
          cases h
        all_goals
          rw [hl'] at he'
          cases he'
        · exact hkey
        · exact hprevious
        · refine ⟨_, rfl, ?_, fun _ => ?_⟩
          · rw [Chain.index_after, Epoch.size_add]
          · rw [Epoch.size_add]
            rfl
    · left
      have hfull : e.size = Chain.lastIndex.toNat :=
        Nat.le_antisymm (hf.short e (Flow.mem_epochs_of_latest hl)) (Nat.le_of_not_lt hroom)
      have hlast : chain.index = Chain.lastIndex := by
        rw [hindex, hfull, UInt32.ofNat_toNat]
      refine ⟨.chainExhausted, some { chain with key := chain.nextKey }, ?_, ?_⟩
      · unfold Ratchet.encrypt
        rw [hs]
        unfold Chain.advance
        simp only [if_pos hlast]
      · refine ⟨fun h => ?_, hw.key, hw.previousLength, fun e' he' => ?_⟩
        · rw [hl] at h
          cases h
        · rw [hl] at he'
          cases he'
          exact ⟨_, rfl, hindex, fun h => absurd h hroom⟩

end Writes

end MultiDevice
