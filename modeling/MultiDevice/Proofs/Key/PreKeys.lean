import MultiDevice.Proofs.Draw
import MultiDevice.Proofs.Entries
import MultiDevice.Store

/-!
# Pre-keys over time

What a number refers to does not change: a signed pre-key is kept under its number until it is
dropped, and the number is not given out again while there are numbers left. A full pool of one-time
pre-keys stays as it is.

## Main definitions

* `Entropy.Drew`: secrets drawn from a source
* `SignedPreKeyRing.Genuine`: the keys were drawn, and are kept under numbers that were given out
* `SignedPreKeyRing.Later`: the same ring at a later time
* `SignedPreKeyRing.Backs`: a numbered key is the public half of what its number refers to

## Main results

* `SignedPreKeyRing.create_later`, `SignedPreKeyRing.purge_drops` and their siblings
* `Store.newPool_eq_ok`: a new pool is full
-/

namespace MultiDevice

/-- While there are numbers left, the one after a number is larger by one. -/
theorem Numbers.toNat_add_one {id : UInt32} (h : id.toNat + 1 < UInt32.size) :
    (id + 1).toNat = id.toNat + 1 := by
  rw [UInt32.toNat_add]
  exact Nat.mod_eq_of_lt h

/-- A secret that was drawn from a source before its draw number `stop`. -/
def Entropy.Drew (e : Entropy) (stop : Nat) (secret : Secret) : Prop :=
  ∃ n, e.drawn ≤ n ∧ n < stop ∧ secret = e.supply n 32

theorem Entropy.Drew.mono {e : Entropy} {stop stop' : Nat} {secret : Secret}
    (h : e.Drew stop secret) (hle : stop ≤ stop') : e.Drew stop' secret := by
  obtain ⟨n, hn, hlt, h⟩ := h
  exact ⟨n, hn, Nat.lt_of_lt_of_le hlt hle, h⟩

/-- The next secret of a source is drawn from what it was before. -/
theorem Entropy.Later.drew_next {e₀ e : Entropy} (h : Later e₀ e) :
    e₀.Drew e.next.drawn (e.supply e.drawn 32) := by
  refine ⟨e.drawn, h.drawn, Nat.lt_succ_self _, ?_⟩
  rw [h.supply]

namespace SignedPreKeyRing

variable {r r' : SignedPreKeyRing} {e₀ e e' : Entropy} {now : Time}

/-- The keys were drawn, and are kept under their own numbers, which were given out. -/
structure Genuine (e₀ : Entropy) (stop : Nat) (r : SignedPreKeyRing) : Prop where
  id_eq : ∀ (id : UInt32) (key : SignedPreKey), r.keys[id]? = some key → key.id = id
  id_lt : ∀ (id : UInt32) (key : SignedPreKey), r.keys[id]? = some key → id.toNat < r.nextId.toNat
  drawn : ∀ (id : UInt32) (key : SignedPreKey), r.keys[id]? = some key → e₀.Drew stop key.secret

theorem Genuine.mono {stop stop' : Nat} (h : r.Genuine e₀ stop) (hle : stop ≤ stop') :
    r.Genuine e₀ stop' :=
  ⟨h.id_eq, h.id_lt, fun id key hk => (h.drawn id key hk).mono hle⟩

/-- The same ring at a later time: what a number refers to is what it referred to before. -/
structure Later (r r' : SignedPreKeyRing) : Prop where
  nextId : r.nextId.toNat ≤ r'.nextId.toNat
  keys : ∀ (id : UInt32) (key : SignedPreKey), id.toNat < r.nextId.toNat →
    r'.keys[id]? = some key → r.keys[id]? = some key

theorem Later.refl (r : SignedPreKeyRing) : Later r r := ⟨Nat.le_refl _, fun _ _ _ hk => hk⟩

theorem Later.trans {r'' : SignedPreKeyRing} (h : Later r r') (h' : Later r' r'') : Later r r'' :=
  ⟨Nat.le_trans h.nextId h'.nextId, fun id key hlt hk =>
    h.keys id key hlt (h'.keys id key (Nat.lt_of_lt_of_le hlt h.nextId) hk)⟩

/-- The same ring without some of its keys. -/
structure Drops (r r' : SignedPreKeyRing) : Prop where
  nextId : r'.nextId = r.nextId
  keys : ∀ (id : UInt32) (key : SignedPreKey), r'.keys[id]? = some key → r.keys[id]? = some key

theorem Drops.refl (r : SignedPreKeyRing) : Drops r r := ⟨rfl, fun _ _ hk => hk⟩

theorem Drops.later (h : Drops r r') : Later r r' :=
  ⟨Nat.le_of_eq (congrArg UInt32.toNat h.nextId.symm), fun id key _ hk => h.keys id key hk⟩

theorem Drops.genuine {stop : Nat} (h : Drops r r') (hr : r.Genuine e₀ stop) :
    r'.Genuine e₀ stop := by
  refine ⟨fun id key hk => hr.id_eq id key (h.keys id key hk), fun id key hk => ?_,
    fun id key hk => hr.drawn id key (h.keys id key hk)⟩
  rw [h.nextId]
  exact hr.id_lt id key (h.keys id key hk)

/-- A numbered key is the public half of what its number refers to, as long as that is kept. -/
def Backs [CipherSuite] (e₀ : Entropy) (stop : Nat) (r : SignedPreKeyRing) (k : NumberedKey) :
    Prop :=
  k.id.toNat < r.nextId.toNat ∧ ∃ secret, e₀.Drew stop secret ∧ k.key = secret.publicKey ∧
    ∀ key, r.keys[k.id]? = some key → key.secret = secret

theorem Backs.later [CipherSuite] {stop stop' : Nat} {k : NumberedKey}
    (h : r.Backs e₀ stop k) (hr : Later r r') (hle : stop ≤ stop') : r'.Backs e₀ stop' k := by
  obtain ⟨hlt, secret, hd, hk, hs⟩ := h
  exact ⟨Nat.lt_of_lt_of_le hlt hr.nextId, secret, hd.mono hle, hk, fun key hkey =>
    hs key (hr.keys _ key hlt hkey)⟩

/-- A key that is kept is backed. -/
theorem Genuine.backs [CipherSuite] {stop : Nat} (hr : r.Genuine e₀ stop) {key : SignedPreKey}
    (hk : r.keys[key.id]? = some key) :
    r.Backs e₀ stop { id := key.id, key := key.publicKey } := by
  refine ⟨hr.id_lt _ key hk, key.secret, hr.drawn _ key hk, rfl, fun key' hk' => ?_⟩
  rw [Option.some.inj (hk.symm.trans hk')]

/-- A new ring starts with one key, made from the next randomness. -/
theorem eq_of_startingAt {first : UInt32} (h : startingAt first now e = .ok r e') :
    r = {
        keys := (∅ : Std.ExtTreeMap UInt32 SignedPreKey).insert first
          ⟨first, now, e.supply e.drawn 32⟩
        expiries := ∅
        current := first
        nextId := first + 1 } ∧
      e' = e.next := by
  obtain ⟨key, t, hg, h⟩ := bind_eq_ok_iff.mp h
  obtain ⟨secret, t', hb, hg⟩ := bind_eq_ok_iff.mp hg
  obtain ⟨rfl, rfl⟩ := Entropy.eq_of_block hb
  cases hg
  cases h
  exact ⟨rfl, rfl⟩

/-- The key that `create` answers is the one kept under the next number, made from the next
randomness unless there was one. -/
theorem eq_of_create {key : SignedPreKey} (h : r.create now e = .ok (key, r') e') :
    key = (r.keys[r.nextId]?).getD ⟨r.nextId, now, e.supply e.drawn 32⟩ ∧
      r' = { r with keys := r.keys.insert r.nextId key, nextId := r.nextId + 1 } ∧
      e' = e.next := by
  obtain ⟨made, t, hg, h⟩ := bind_eq_ok_iff.mp h
  obtain ⟨secret, t', hb, hg⟩ := bind_eq_ok_iff.mp hg
  obtain ⟨rfl, rfl⟩ := Entropy.eq_of_block hb
  cases hg
  cases h
  exact ⟨rfl, rfl, rfl⟩

/-- While there are numbers left, a new key gets a number that was not given out. -/
theorem create_later (hr : r.Genuine e₀ e.drawn) (he : Entropy.Later e₀ e)
    (hroom : r.nextId.toNat + 1 < UInt32.size) {key : SignedPreKey}
    (h : r.create now e = .ok (key, r') e') :
    Entropy.Later e e' ∧ r'.Genuine e₀ e'.drawn ∧ Later r r' ∧ r'.keys[key.id]? = some key ∧
      r'.nextId.toNat = r.nextId.toNat + 1 := by
  obtain ⟨hkey, rfl, rfl⟩ := eq_of_create h
  have hfree : r.keys[r.nextId]? = none := by
    cases hk : r.keys[r.nextId]? with
    | none => rfl
    | some key => exact absurd (hr.id_lt _ key hk) (Nat.lt_irrefl _)
  have hnext := Numbers.toNat_add_one hroom
  rw [hfree, Option.getD_none] at hkey
  subst hkey
  have hget : ∀ (id : UInt32) (key' : SignedPreKey),
      (r.keys.insert r.nextId ⟨r.nextId, now, e.supply e.drawn 32⟩)[id]? = some key' →
      (id = r.nextId ∧ key' = ⟨r.nextId, now, e.supply e.drawn 32⟩) ∨ r.keys[id]? = some key' :=
    fun id key' hk => (Entries.of_insert hk).imp_right And.right
  refine ⟨e.later_next, ⟨fun id key hk => ?_, fun id key hk => ?_, fun id key hk => ?_⟩,
    ⟨?_, fun id key hlt hk => ?_⟩, ?_, hnext⟩
  · rcases hget id key hk with ⟨rfl, rfl⟩ | hk
    · rfl
    · exact hr.id_eq id key hk
  · simp only [hnext]
    rcases hget id key hk with ⟨rfl, rfl⟩ | hk
    · exact Nat.lt_succ_self _
    · exact Nat.lt_succ_of_lt (hr.id_lt id key hk)
  · rcases hget id key hk with ⟨rfl, rfl⟩ | hk
    · exact he.drew_next
    · exact (hr.drawn id key hk).mono (Nat.le_succ _)
  · simp only [hnext]
    exact Nat.le_succ _
  · rcases hget id key hk with ⟨rfl, rfl⟩ | hk
    · exact absurd hlt (Nat.lt_irrefl _)
    · exact hk
  · exact Std.ExtTreeMap.getElem?_insert_self

theorem promote_drops {id : UInt32} {previous : Option UInt32}
    (h : r.promote id = .ok (previous, r')) : Drops r r' := by
  unfold promote at h
  split at h
  · cases h
    exact ⟨rfl, fun _ _ hk => hk⟩
  · cases h

theorem expire_drops {id : UInt32} {expiry : Time} (h : r.expire id expiry = .ok r') :
    Drops r r' := by
  unfold expire at h
  split at h
  · cases h
  · split at h
    · cases h
      exact ⟨rfl, fun _ _ hk => hk⟩
    · cases h
      exact ⟨rfl, fun _ _ hk => hk⟩

theorem purge_drops (r : SignedPreKeyRing) (now : Time) : Drops r (r.purge now).2 := by
  refine ⟨rfl, fun id key hk => ?_⟩
  change (r.keys.filter fun id _ => !r.isDue now id)[id]? = some key at hk
  rw [Std.ExtTreeMap.getElem?_filter] at hk
  exact Option.eq_some_of_pfilter_eq_some hk

theorem startingAt_genuine {first : UInt32} (hfirst : first.toNat + 1 < UInt32.size)
    (he : Entropy.Later e₀ e) (h : startingAt first now e = .ok r e') :
    Entropy.Later e e' ∧ r.Genuine e₀ e'.drawn ∧ r.nextId.toNat = first.toNat + 1 := by
  obtain ⟨rfl, rfl⟩ := eq_of_startingAt h
  have hnext := Numbers.toNat_add_one hfirst
  have hget : ∀ (id : UInt32) (key : SignedPreKey),
      ((∅ : Std.ExtTreeMap UInt32 SignedPreKey).insert first
        ⟨first, now, e.supply e.drawn 32⟩)[id]? = some key →
      id = first ∧ key = ⟨first, now, e.supply e.drawn 32⟩ := by
    intro id key hk
    rcases Entries.of_insert hk with hnew | ⟨-, hk⟩
    · exact hnew
    · cases hk
  refine ⟨e.later_next, ⟨fun id key hk => ?_, fun id key hk => ?_, fun id key hk => ?_⟩, hnext⟩
  · obtain ⟨rfl, rfl⟩ := hget id key hk
    rfl
  · obtain ⟨rfl, rfl⟩ := hget id key hk
    simp only [hnext]
    exact Nat.lt_succ_self _
  · obtain ⟨rfl, rfl⟩ := hget id key hk
    exact he.drew_next

end SignedPreKeyRing

theorem Store.exists_of_promoteSignedPreKey {s s' : Store} {id : UInt32} {previous : Option UInt32}
    (h : s.promoteSignedPreKey id = .ok (previous, s')) :
    ∃ signedPreKeys, s.signedPreKeys.promote id = .ok (previous, signedPreKeys) ∧
      s' = { s with signedPreKeys } := by
  unfold promoteSignedPreKey at h
  cases hr : s.signedPreKeys.promote id with
  | error err =>
    rw [hr] at h
    cases h
  | ok p =>
    rw [hr] at h
    cases h
    exact ⟨p.2, rfl, rfl⟩

theorem Store.exists_of_expireSignedPreKey {s s' : Store} {id : UInt32} {expiry : Time}
    (h : s.expireSignedPreKey id expiry = .ok s') :
    ∃ signedPreKeys, s.signedPreKeys.expire id expiry = .ok signedPreKeys ∧
      s' = { s with signedPreKeys } := by
  unfold expireSignedPreKey at h
  cases hr : s.signedPreKeys.expire id expiry with
  | error err =>
    rw [hr] at h
    cases h
  | ok r =>
    rw [hr] at h
    cases h
    exact ⟨r, rfl, rfl⟩

namespace OneTimePreKeyPool

variable {p p' : OneTimePreKeyPool} {e e' : Entropy}

/-- The pool of a source that only added keys, numbered from one on. -/
structure Counted (p : OneTimePreKeyPool) : Prop where
  id_le : ∀ id ∈ p.keys, id.toNat ≤ p.count
  nextId : p.nextId = UInt32.ofNat (p.count + 1)

theorem counted_startingAt : Counted (startingAt 1) where
  id_le _ h := absurd h Std.ExtTreeMap.not_mem_empty
  nextId := rfl

/-- A key that is added under a free number counts. -/
theorem count_add_of_notMem {key : OneTimePreKey} (h : key.id ∉ p.keys) :
    (p.add key).count = p.count + 1 := by
  change (p.keys.insert key.id key).size = _
  rw [Std.ExtTreeMap.size_insert, if_neg fun hc => h (Std.ExtTreeMap.mem_iff_contains.mpr hc)]
  rfl

/-- While there are numbers left, a key that is added counts, because its number is free. -/
theorem Counted.add (hp : p.Counted) (secret : Secret) (hroom : p.count + 1 < UInt32.size) :
    (p.add ⟨p.nextId, secret⟩).Counted ∧ (p.add ⟨p.nextId, secret⟩).count = p.count + 1 := by
  have hnext : p.nextId.toNat = p.count + 1 := by
    rw [hp.nextId, UInt32.toNat_ofNat']
    exact Nat.mod_eq_of_lt hroom
  have hfree : p.nextId ∉ p.keys := fun hm => by
    have hle := hp.id_le _ hm
    omega
  have hcount : (p.add ⟨p.nextId, secret⟩).count = p.count + 1 := count_add_of_notMem hfree
  refine ⟨⟨fun id hm => ?_, ?_⟩, hcount⟩
  · rw [hcount]
    rcases Std.ExtTreeMap.mem_insert.mp hm with heq | hm
    · rw [← Std.LawfulEqCmp.compare_eq_iff_eq.mp heq]
      exact Nat.le_of_eq hnext
    · exact Nat.le_succ_of_le (hp.id_le id hm)
  · change p.nextId + 1 = _
    rw [hcount, hp.nextId]
    exact (UInt32.ofNat_add _ 1).symm

/-- One more key takes one draw; without it the pool stays as it is. -/
theorem generateOne_eq (p : OneTimePreKeyPool) (e : Entropy) :
    generateOne (p, e) =
      if e.refuses e.attempts then .error .noRandomness (p, { e with attempts := e.attempts + 1 })
      else .ok ⟨p.nextId, e.supply e.drawn 32⟩
        (p.add ⟨p.nextId, e.supply e.drawn 32⟩, e.next) := by
  cases hr : e.refuses e.attempts with
  | false =>
    have hgenerate : OneTimePreKey.generate p.nextId e =
        .ok ⟨p.nextId, e.supply e.drawn 32⟩ e.next := bind_of_ok (Entropy.block_eq 32 hr)
    simp only [generateOne, hgenerate, Bool.false_eq_true, if_false]
  | true =>
    have hblock : Entropy.block 32 e =
        .error .noRandomness { e with attempts := e.attempts + 1 } := by
      simp only [Entropy.block, hr, if_true]
    have hgenerate : OneTimePreKey.generate p.nextId e =
        .error .noRandomness { e with attempts := e.attempts + 1 } := bind_of_error hblock
    simp only [generateOne, hgenerate, if_true]

/-- One new key is drawn and added, or nothing is added. -/
theorem endState_generateOne (p : OneTimePreKeyPool) (e : Entropy) :
    Entropy.Later e (endState generateOne (p, e)).2 ∧
      ∀ key t, generateOne (p, e) = .ok key t → ∃ secret, t.1 = p.add ⟨p.nextId, secret⟩ := by
  have hone := generateOne_eq p e
  split at hone
  · refine ⟨?_, fun key t h => ?_⟩
    · rw [endState_of_error hone]
      exact ⟨rfl, rfl, Nat.le_refl _⟩
    · cases hone.symm.trans h
  · refine ⟨?_, fun key t h => ?_⟩
    · rw [endState_of_ok hone]
      exact e.later_next
    · cases hone.symm.trans h
      exact ⟨_, rfl⟩

theorem generate_later (count : Nat) (p : OneTimePreKeyPool) (e : Entropy) :
    Entropy.Later e (endState (generate count) (p, e)).2 := by
  -- Induction on the number of keys to be drawn, from any pool and source.
  induction count generalizing p e with
  | zero => exact Entropy.Later.refl e
  | succ count ih =>
    have hlater : ∀ t : OneTimePreKeyPool × Entropy, Entropy.Later e t.2 →
        Entropy.Later e (endState (generate count) t).2 := fun t ht => ht.trans (ih t.1 t.2)
    let q : OneTimePreKeyPool × Entropy → Prop := fun t => Entropy.Later e t.2
    exact endState_bind_induction (p := q) (endState_generateOne p e).1 fun key t _ ht =>
      endState_bind_induction (p := q) (hlater t ht) fun keys t' _ ht' => ht'

/-- While there are numbers left, every key that is added counts. -/
theorem generate_counted {count : Nat} {keys : List OneTimePreKey}
    (h : generate count (p, e) = .ok keys (p', e')) (hp : p.Counted)
    (hroom : p.count + count < UInt32.size) : p'.Counted ∧ p'.count = p.count + count := by
  induction count generalizing p e keys with
  | zero =>
    cases h
    exact ⟨hp, rfl⟩
  | succ count ih =>
    obtain ⟨key, ⟨p₁, e₁⟩, hone, h⟩ := bind_eq_ok_iff.mp h
    obtain ⟨rest, t, hrest, h⟩ := bind_eq_ok_iff.mp h
    cases h
    obtain ⟨secret, hp₁⟩ := (endState_generateOne p e).2 key _ hone
    dsimp only at hp₁
    subst hp₁
    obtain ⟨hp₁, hcount⟩ := hp.add secret (by omega)
    obtain ⟨hc, hsize⟩ := ih hrest hp₁ (by rw [hcount]; omega)
    exact ⟨hc, by rw [hsize, hcount]; omega⟩

/-- A full pool is not filled up. -/
theorem replenish_of_le {target : Nat} (h : target ≤ p.count) (e : Entropy) :
    replenish target (p, e) = .ok 0 (p, e) := by
  rw [replenish, bind_get, Nat.sub_eq_zero_of_le h]
  rfl

theorem replenish_later (target : Nat) (p : OneTimePreKeyPool) (e : Entropy) :
    Entropy.Later e (endState (replenish target) (p, e)).2 := by
  rw [replenish, endState_bind_get]
  let q : OneTimePreKeyPool × Entropy → Prop := fun t => Entropy.Later e t.2
  exact endState_bind_induction (p := q) (generate_later (target - p.count) p e)
    fun keys t _ ht => ht

end OneTimePreKeyPool

/-- A new pool draws its keys and nothing else. -/
theorem Store.newPool_advances (first : UInt32) (count : Nat) :
    Draw.Advances (newPool first count) := by
  intro e
  have hlater := OneTimePreKeyPool.replenish_later count (.startingAt first) e
  unfold endState newPool
  cases h : OneTimePreKeyPool.replenish count (.startingAt first, e) with
  | ok added t =>
    rw [endState_of_ok h] at hlater
    exact hlater
  | error err t =>
    rw [endState_of_error h] at hlater
    exact hlater

/-- An identity key is one string of the source, used for both of its halves. -/
theorem IdentityKey.eq_of_generate {identity : IdentityKey} {e e' : Entropy}
    (h : IdentityKey.generate e = .ok identity e') :
    identity = ⟨e.supply e.drawn 32, e.supply e.drawn 32⟩ ∧ e' = e.next := by
  obtain ⟨seed, e₁, hseed, h⟩ := bind_eq_ok_iff.mp h
  obtain ⟨rfl, rfl⟩ := Entropy.eq_of_block hseed
  cases h
  exact ⟨rfl, rfl⟩

/-- Setting a device up takes a new pool, a new identity and a new ring, drawn in this order. -/
theorem Store.provision_eq_ok_iff {s : Store} {count : Nat} {now : Time} {e e' : Entropy} :
    Store.provision count now e = .ok s e' ↔ ∃ oneTimePreKeys e₁ identity e₂ signedPreKeys,
      newPool 1 count e = .ok oneTimePreKeys e₁ ∧
      IdentityKey.generate e₁ = .ok identity e₂ ∧
      SignedPreKeyRing.startingAt 1 now e₂ = .ok signedPreKeys e' ∧
      s = { identity, signedPreKeys, oneTimePreKeys, sessions := ∅, trust := ∅ } := by
  constructor
  · intro h
    obtain ⟨pool, e₁, hpool, h⟩ := bind_eq_ok_iff.mp h
    obtain ⟨identity, e₂, hidentity, h⟩ := bind_eq_ok_iff.mp h
    obtain ⟨ring, e₃, hring, h⟩ := bind_eq_ok_iff.mp h
    cases h
    exact ⟨pool, e₁, identity, e₂, ring, hpool, hidentity, hring, rfl⟩
  · rintro ⟨pool, e₁, identity, e₂, ring, hpool, hidentity, hring, rfl⟩
    exact (bind_of_ok hpool).trans ((bind_of_ok hidentity).trans (bind_of_ok hring))

/-- Starting afresh takes a new ring, a new pool and a new identity, drawn in this order. -/
theorem Store.reprovision_eq_ok_iff {s s' : Store} {count : Nat} {now : Time} {e e' : Entropy} :
    s.reprovision count now e = .ok s' e' ↔ ∃ signedPreKeys e₁ oneTimePreKeys e₂ identity,
      SignedPreKeyRing.startingAt s.signedPreKeys.nextId now e = .ok signedPreKeys e₁ ∧
      newPool s.oneTimePreKeys.nextId count e₁ = .ok oneTimePreKeys e₂ ∧
      IdentityKey.generate e₂ = .ok identity e' ∧
      s' = { s with identity, signedPreKeys, oneTimePreKeys, sessions := ∅ } := by
  constructor
  · intro h
    obtain ⟨ring, e₁, hring, h⟩ := bind_eq_ok_iff.mp h
    obtain ⟨pool, e₂, hpool, h⟩ := bind_eq_ok_iff.mp h
    obtain ⟨identity, e₃, hidentity, h⟩ := bind_eq_ok_iff.mp h
    cases h
    exact ⟨ring, e₁, pool, e₂, identity, hring, hpool, hidentity, rfl⟩
  · rintro ⟨ring, e₁, pool, e₂, identity, hring, hpool, hidentity, rfl⟩
    exact (bind_of_ok hring).trans ((bind_of_ok hpool).trans (bind_of_ok hidentity))

theorem Store.createSignedPreKey_advances (s : Store) (now : Time) :
    Draw.Advances (s.createSignedPreKey now) := by
  have hkey : Draw.Advances (SignedPreKey.generate s.signedPreKeys.nextId now) :=
    (Draw.Advances.block 32).bind fun _ => Draw.Advances.pure _
  exact (hkey.bind fun _ => Draw.Advances.pure _).bind fun _ => Draw.Advances.pure _

theorem Store.reprovision_advances (s : Store) (count : Nat) (now : Time) :
    Draw.Advances (s.reprovision count now) := by
  have hkey : Draw.Advances (SignedPreKey.generate s.signedPreKeys.nextId now) :=
    (Draw.Advances.block 32).bind fun _ => Draw.Advances.pure _
  have hidentity : Draw.Advances IdentityKey.generate :=
    (Draw.Advances.block 32).bind fun _ => Draw.Advances.pure _
  refine (hkey.bind fun _ => Draw.Advances.pure _).bind fun ring => ?_
  exact (newPool_advances _ _).bind fun pool => hidentity.bind fun _ => Draw.Advances.pure _

/-- A device that fills up its pool keeps the pool as far as it came. -/
theorem Store.endState_replenish (target : Nat) (s : Store) (e : Entropy) :
    endState (Store.replenish target) (s, e) =
      ({ s with
          oneTimePreKeys :=
            (endState (OneTimePreKeyPool.replenish target) (s.oneTimePreKeys, e)).1 },
        (endState (OneTimePreKeyPool.replenish target) (s.oneTimePreKeys, e)).2) := by
  simp only [endState, Store.replenish]
  cases OneTimePreKeyPool.replenish target (s.oneTimePreKeys, e) <;> rfl

/-- A new pool is full, while there are numbers for its keys. -/
theorem Store.newPool_eq_ok {count : Nat} {e e' : Entropy} {p : OneTimePreKeyPool}
    (h : Store.newPool 1 count e = .ok p e') :
    Entropy.Later e e' ∧ (count < UInt32.size → p.count = count) := by
  refine ⟨(newPool_advances 1 count).of_ok h, fun hlt => ?_⟩
  unfold newPool at h
  cases hr : OneTimePreKeyPool.replenish count (.startingAt 1, e) with
  | error err t =>
    rw [hr] at h
    cases h
  | ok added t =>
    rw [hr] at h
    cases h
    rw [OneTimePreKeyPool.replenish, bind_get] at hr
    obtain ⟨keys, t', hg, hr⟩ := bind_eq_ok_iff.mp hr
    cases hr
    have hzero : (OneTimePreKeyPool.startingAt 1).count = 0 := rfl
    obtain ⟨-, hcount⟩ := OneTimePreKeyPool.generate_counted hg
      OneTimePreKeyPool.counted_startingAt (by rw [hzero]; omega)
    rw [hcount, hzero]
    omega

end MultiDevice
