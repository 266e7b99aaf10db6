import MultiDevice.Proofs.Entries
import MultiDevice.Proofs.Key.PreKeys

/-!
# Numbers of pre-keys

A device numbers its pre-keys in the order in which they are made and goes on counting when they are
replaced. While there are numbers left, a number whose key is gone is not given out again, and a
number that is in use is not given to another key.

## Main definitions

* `OneTimePreKeyPool.madeSince`: the keys that a pool has and another one had not
* `OneTimePreKeyPool.Numbered`: how many numbers were given out so far
* `OneTimePreKeyPool.Extends`: a pool after more keys were made
* `OneTimePreKeyPool.Follows`: a pool after keys were made and others removed
* `SignedPreKeyRing.Numbered`: no number was given out twice

## Main results

* `OneTimePreKeyPool.replenish_extends`: filling up keeps what every number refers to
* `SignedPreKeyRing.Numbered.create`: a new signed pre-key takes a number of its own
* `Store.reprovision_follows`: a device that starts afresh goes on counting
-/

namespace MultiDevice

namespace OneTimePreKeyPool

variable {p p' p'' : OneTimePreKeyPool} {given made more : Nat} {e e' : Entropy}

/-- The keys of a pool, under their numbers. -/
def entries (p : OneTimePreKeyPool) : List (UInt32 × OneTimePreKey) := p.keys.toList

/-- The keys of a pool that were not in another one under the same numbers. -/
def madeSince (before after : OneTimePreKeyPool) : List (UInt32 × OneTimePreKey) :=
  after.entries.filter fun x => before.keys[x.1]? ≠ some x.2

theorem mem_entries {id : UInt32} {key : OneTimePreKey} :
    (id, key) ∈ p.entries ↔ p.keys[id]? = some key :=
  Std.ExtTreeMap.mem_toList_iff_getElem?_eq_some

theorem mem_madeSince {x : UInt32 × OneTimePreKey} :
    x ∈ madeSince p p' ↔ x ∈ p'.entries ∧ x ∉ p.entries := by
  rw [madeSince, List.mem_filter, decide_eq_true_iff, Ne, ← mem_entries]

/-- The numbers given out so far are those up to `given`, and the next one follows. -/
structure Numbered (given : Nat) (p : OneTimePreKeyPool) : Prop where
  id_le : ∀ id ∈ p.keys, id.toNat ≤ given
  nextId : p.nextId = UInt32.ofNat (given + 1)

/-- The pool after `made` more keys were made: earlier numbers refer to what they referred to. -/
structure Extends (given made : Nat) (p p' : OneTimePreKeyPool) : Prop where
  numbered : p'.Numbered (given + made)
  same : ∀ id : UInt32, id.toNat ≤ given → p'.keys[id]? = p.keys[id]?

/-- The pool after `made` more keys were made and others removed: earlier numbers refer to nothing
that they did not refer to before. -/
structure Follows (given made : Nat) (p p' : OneTimePreKeyPool) : Prop where
  numbered : p'.Numbered (given + made)
  mem : ∀ id : UInt32, id.toNat ≤ given → id ∈ p'.keys → id ∈ p.keys

theorem numbered_startingAt (h : p.Numbered given) : (startingAt p.nextId).Numbered given :=
  ⟨fun _ hm => absurd hm Std.ExtTreeMap.not_mem_empty, h.nextId⟩

namespace Extends

theorem refl (h : p.Numbered given) : Extends given 0 p p := ⟨h, fun _ _ => rfl⟩

theorem trans (h : Extends given made p p') (h' : Extends (given + made) more p' p'') :
    Extends given (made + more) p p'' := by
  refine ⟨by rw [← Nat.add_assoc]; exact h'.numbered, fun id hid => ?_⟩
  rw [h'.same id (Nat.le_add_right_of_le hid), h.same id hid]

theorem follows (h : Extends given made p p') : Follows given made p p' := by
  refine ⟨h.numbered, fun id hid hm => ?_⟩
  rw [Std.ExtTreeMap.mem_iff_isSome_getElem?] at hm ⊢
  rw [← h.same id hid]
  exact hm

/-- Every key that was there stays. -/
theorem getElem? (h : Extends given made p p') (hp : p.Numbered given) {id : UInt32}
    {key : OneTimePreKey} (hk : p.keys[id]? = some key) : p'.keys[id]? = some key := by
  rw [h.same id (hp.id_le id (Entries.mem_of_getElem? hk))]
  exact hk

end Extends

theorem Follows.refl (h : p.Numbered given) : Follows given 0 p p := ⟨h, fun _ _ hm => hm⟩

/-- Removing a key gives no number out. -/
theorem Numbered.remove (h : p.Numbered given) (id : UInt32) :
    Follows given 0 p (p.remove id).2 := by
  have hmem : ∀ other ∈ (p.remove id).2.keys, other ∈ p.keys := fun other hm =>
    Std.ExtTreeMap.mem_of_mem_erase hm
  exact ⟨⟨fun other hm => h.id_le other (hmem other hm), h.nextId⟩, fun other _ hm =>
    hmem other hm⟩

theorem notMem_remove (p : OneTimePreKeyPool) (id : UInt32) : id ∉ (p.remove id).2.keys :=
  fun hm => (Std.ExtTreeMap.mem_erase.mp hm).1 Std.ReflCmp.compare_self

/-- While there are numbers left, a key that is added takes a new number. -/
theorem Numbered.add (h : p.Numbered given) (secret : Secret) (hroom : given + 1 < UInt32.size) :
    Extends given 1 p (p.add ⟨p.nextId, secret⟩) := by
  have hnext : p.nextId.toNat = given + 1 := by
    rw [h.nextId, UInt32.toNat_ofNat']
    exact Nat.mod_eq_of_lt hroom
  refine ⟨⟨fun id hm => ?_, ?_⟩, fun id hid => ?_⟩
  · rcases Std.ExtTreeMap.mem_insert.mp hm with heq | hm
    · rw [← Std.LawfulEqCmp.compare_eq_iff_eq.mp heq]
      exact Nat.le_of_eq hnext
    · exact Nat.le_succ_of_le (h.id_le id hm)
  · change p.nextId + 1 = _
    rw [h.nextId]
    exact (UInt32.ofNat_add _ 1).symm
  · have hne : id ≠ p.nextId := by
      rintro rfl
      rw [hnext] at hid
      exact Nat.not_succ_le_self given hid
    exact Entries.insert_of_ne hne

/-- One more key is drawn and added, or the pool stays as it is. -/
theorem generateOne_cases (p : OneTimePreKeyPool) (e : Entropy) :
    (∃ secret, generateOne (p, e) =
        .ok ⟨p.nextId, secret⟩ (p.add ⟨p.nextId, secret⟩, e.next)) ∨
      ∃ err e', generateOne (p, e) = .error err (p, e') ∧ e'.drawn = e.drawn := by
  rw [generateOne_eq]
  split
  · exact .inr ⟨_, _, rfl, rfl⟩
  · exact .inl ⟨_, rfl⟩

/-- Once the first key was made, the others are made from where it left off. -/
theorem endState_generate_succ {count : Nat} {key : OneTimePreKey} {t : OneTimePreKeyPool × Entropy}
    (h : generateOne (p, e) = .ok key t) :
    endState (generate (count + 1)) (p, e) = endState (generate count) t := by
  rw [generate, endState_bind_of_ok h]
  cases hrest : generate count t with
  | ok rest t' =>
    rw [endState_bind_of_ok hrest, endState_of_ok hrest]
    rfl
  | error err t' => rw [endState_bind_of_error hrest, endState_of_error hrest]

/-- What holds of a pool and itself, and of a pool and a later one if it holds of the two once a key
was added to the first, holds of a pool and what it is after keys were made, as many as draws were
answered. -/
theorem endState_generate_induction
    {R : Nat → OneTimePreKeyPool → OneTimePreKeyPool → Prop} (hnone : ∀ p, R 0 p p)
    (hadd : ∀ p secret made p', R made (p.add ⟨p.nextId, secret⟩) p' → R (1 + made) p p')
    (count : Nat) (p : OneTimePreKeyPool) (e : Entropy) :
    R ((endState (generate count) (p, e)).2.drawn - e.drawn) p
      (endState (generate count) (p, e)).1 := by
  -- Induction on the number of keys to be made, from any pool and source.
  induction count generalizing p e with
  | zero =>
    change R (e.drawn - e.drawn) p p
    rw [Nat.sub_self]
    exact hnone p
  | succ count ih =>
    rcases generateOne_cases p e with ⟨secret, hone⟩ | ⟨err, e', hone, hdrawn⟩
    · rw [endState_generate_succ hone]
      have hlater := (generate_later count (p.add ⟨p.nextId, secret⟩) e.next).drawn
      have hrest := ih (p.add ⟨p.nextId, secret⟩) e.next
      generalize endState (generate count) (p.add ⟨p.nextId, secret⟩, e.next) = t at hlater hrest ⊢
      have hmade : t.2.drawn - e.drawn = 1 + (t.2.drawn - e.next.drawn) := by
        have hnext : e.next.drawn = e.drawn + 1 := rfl
        omega
      rw [hmade]
      exact hadd p secret _ _ hrest
    · rw [generate, endState_bind_of_error hone]
      dsimp only
      rw [hdrawn, Nat.sub_self]
      exact hnone p

/-- As many keys are made as draws are answered, whether all of them are or not. -/
theorem generate_extends (count : Nat) (h : p.Numbered given)
    (hroom : given + ((endState (generate count) (p, e)).2.drawn - e.drawn) < UInt32.size) :
    Extends given ((endState (generate count) (p, e)).2.drawn - e.drawn) p
      (endState (generate count) (p, e)).1 := by
  let R (made : Nat) (p p' : OneTimePreKeyPool) : Prop :=
    ∀ given, p.Numbered given → given + made < UInt32.size → Extends given made p p'
  have hadd : ∀ p secret made p', R made (p.add ⟨p.nextId, secret⟩) p' → R (1 + made) p p' := by
    intro p secret made p' hrest given h hroom
    have hfirst := h.add secret (by omega)
    exact hfirst.trans (hrest _ hfirst.numbered (by omega))
  exact endState_generate_induction (R := R) (fun p given h _ => .refl h) hadd count p e given h
    hroom

/-- Making all keys that are asked for takes as many draws. -/
theorem drawn_of_generate {count : Nat} {keys : List OneTimePreKey}
    (h : generate count (p, e) = .ok keys (p', e')) : e'.drawn = e.drawn + count := by
  induction count generalizing p e keys with
  | zero =>
    cases h
    rfl
  | succ count ih =>
    obtain ⟨key, t, hone, h⟩ := bind_eq_ok_iff.mp h
    obtain ⟨rest, t', hrest, h⟩ := bind_eq_ok_iff.mp h
    cases h
    rcases generateOne_cases p e with ⟨secret, hone'⟩ | ⟨err, e₁, hone', -⟩
    · cases hone'.symm.trans hone
      rw [ih hrest]
      change e.drawn + 1 + count = _
      omega
    · cases hone'.symm.trans hone

/-- Filling up makes the keys that are missing. -/
theorem endState_replenish (target : Nat) (p : OneTimePreKeyPool) (e : Entropy) :
    endState (replenish target) (p, e) = endState (generate (target - p.count)) (p, e) := by
  rw [replenish, endState_bind_get]
  cases h : generate (target - p.count) (p, e) with
  | ok keys t =>
    rw [endState_bind_of_ok h, endState_of_ok h]
    rfl
  | error err t => rw [endState_bind_of_error h, endState_of_error h]

/-- Making keys removes none, whatever their numbers are. -/
theorem mem_endState_generate (count : Nat) {id : UInt32} (h : id ∈ p.keys) :
    id ∈ (endState (generate count) (p, e)).1.keys := by
  let R (_ : Nat) (p p' : OneTimePreKeyPool) : Prop := id ∈ p.keys → id ∈ p'.keys
  refine endState_generate_induction (R := R) (fun p h => h) ?_ count p e h
  intro p secret made p' hrest h
  exact hrest (Std.ExtTreeMap.mem_insert.mpr (.inr h))

/-- Filling up keeps what every number refers to. -/
theorem replenish_extends (target : Nat) (h : p.Numbered given)
    (hroom : given + ((endState (replenish target) (p, e)).2.drawn - e.drawn) < UInt32.size) :
    Extends given ((endState (replenish target) (p, e)).2.drawn - e.drawn) p
      (endState (replenish target) (p, e)).1 := by
  rw [endState_replenish] at hroom ⊢
  exact generate_extends _ h hroom

end OneTimePreKeyPool

/-! ## Signed pre-keys -/

namespace SignedPreKeyRing

variable {r r' : SignedPreKeyRing} {n : Nat} {now : Time} {e e' : Entropy}

/-- At most `n` numbers were given out, and only those are in use. -/
structure Numbered (n : Nat) (r : SignedPreKeyRing) : Prop where
  next_le : r.nextId.toNat ≤ n
  id_lt : ∀ id ∈ r.keys, id.toNat < r.nextId.toNat
  expiry_lt : ∀ id ∈ r.expiries, id.toNat < r.nextId.toNat

theorem Numbered.mono {n' : Nat} (h : r.Numbered n) (hle : n ≤ n') : r.Numbered n' :=
  ⟨Nat.le_trans h.next_le hle, h.id_lt, h.expiry_lt⟩

/-- Dropping keys, and scheduling that keys are dropped, gives no number out. -/
theorem Numbered.of_subset (h : r.Numbered n) (hnext : r'.nextId = r.nextId)
    (hkeys : ∀ id ∈ r'.keys, id ∈ r.keys)
    (hexpiries : ∀ id ∈ r'.expiries, id ∈ r.expiries ∨ id ∈ r.keys) : r'.Numbered n := by
  refine ⟨hnext ▸ h.next_le, fun id hid => hnext ▸ h.id_lt id (hkeys id hid), fun id hid => ?_⟩
  rw [hnext]
  rcases hexpiries id hid with hid | hid
  · exact h.expiry_lt id hid
  · exact h.id_lt id hid

theorem toNat_nextId_add_one (h : r.nextId.toNat ≤ n) (hroom : n + 1 < UInt32.size) :
    (r.nextId + 1).toNat = r.nextId.toNat + 1 :=
  Numbers.toNat_add_one (Nat.lt_of_le_of_lt (Nat.succ_le_succ h) hroom)

theorem drawn_of_startingAt {first : UInt32} (h : startingAt first now e = .ok r e') :
    e'.drawn = e.drawn + 1 := by
  obtain ⟨-, rfl⟩ := eq_of_startingAt h
  rfl

/-- A ring that is started with the next number of another goes on counting. -/
theorem Numbered.startingAt (h : r.Numbered n) (hroom : n + 1 < UInt32.size)
    (hs : SignedPreKeyRing.startingAt r.nextId now e = .ok r' e') :
    r'.Numbered (n + 1) := by
  obtain ⟨rfl, -⟩ := eq_of_startingAt hs
  have hnext := toNat_nextId_add_one h.next_le hroom
  refine ⟨?_, fun id hid => ?_, fun id hid => absurd hid Std.ExtTreeMap.not_mem_empty⟩
  · dsimp only
    rw [hnext]
    exact Nat.succ_le_succ h.next_le
  · dsimp only
    rw [hnext]
    rcases Std.ExtTreeMap.mem_insert.mp hid with heq | hid
    · rw [← Std.LawfulEqCmp.compare_eq_iff_eq.mp heq]
      exact Nat.lt_succ_self _
    · exact absurd hid Std.ExtTreeMap.not_mem_empty

theorem drawn_of_create {key : SignedPreKey} (h : r.create now e = .ok (key, r') e') :
    e'.drawn = e.drawn + 1 := by
  obtain ⟨-, -, rfl⟩ := eq_of_create h
  rfl

/-- While there are numbers left, a new key takes a number of its own, and the others stay. -/
theorem Numbered.create (h : r.Numbered n) (hroom : n + 1 < UInt32.size) {key : SignedPreKey}
    (hc : r.create now e = .ok (key, r') e') :
    r'.Numbered (n + 1) ∧ key.id = r.nextId ∧ r'.current = r.current ∧
      r'.expiries = r.expiries ∧
      ∀ (id : UInt32) (key' : SignedPreKey), r.keys[id]? = some key' →
        r'.keys[id]? = some key' := by
  obtain ⟨hkey, rfl, -⟩ := eq_of_create hc
  have hfree : r.nextId ∉ r.keys := fun hm => Nat.lt_irrefl _ (h.id_lt _ hm)
  rw [Std.ExtTreeMap.getElem?_eq_none hfree, Option.getD_none] at hkey
  subst hkey
  have hnext := toNat_nextId_add_one h.next_le hroom
  refine ⟨⟨?_, fun id hid => ?_, fun id hid => ?_⟩, rfl, rfl, rfl, fun id key' hk => ?_⟩
  · dsimp only
    rw [hnext]
    exact Nat.succ_le_succ h.next_le
  · dsimp only
    rw [hnext]
    rcases Std.ExtTreeMap.mem_insert.mp hid with heq | hid
    · rw [← Std.LawfulEqCmp.compare_eq_iff_eq.mp heq]
      exact Nat.lt_succ_self _
    · exact Nat.lt_succ_of_lt (h.id_lt id hid)
  · dsimp only
    rw [hnext]
    exact Nat.lt_succ_of_lt (h.expiry_lt id hid)
  · have hne : id ≠ r.nextId := by
      rintro rfl
      exact hfree (Entries.mem_of_getElem? hk)
    exact (Entries.insert_of_ne hne).trans hk

end SignedPreKeyRing

namespace Store

open OneTimePreKeyPool

variable {s s' : Store} {given count : Nat} {now : Time} {e e' : Entropy}

/-- A new pool is handed over only when every key asked for was made. -/
theorem drawn_of_newPool {first : UInt32} {p : OneTimePreKeyPool}
    (h : newPool first count e = .ok p e') :
    OneTimePreKeyPool.replenish count (startingAt first, e) = .ok count (p, e') ∧
      e'.drawn = e.drawn + count := by
  unfold newPool at h
  cases hr : OneTimePreKeyPool.replenish count (startingAt first, e) with
  | error err t =>
    rw [hr] at h
    cases h
  | ok added t =>
    obtain ⟨pool, e₁⟩ := t
    rw [hr] at h
    cases h
    have hempty : count - (startingAt first).count = count := Nat.sub_zero count
    rw [OneTimePreKeyPool.replenish, bind_get, hempty] at hr
    obtain ⟨keys, t, hg, hk⟩ := bind_eq_ok_iff.mp hr
    cases hk
    exact ⟨rfl, drawn_of_generate hg⟩

/-- A new pool goes on counting where the numbers given out before ended. -/
theorem newPool_extends {p p' : OneTimePreKeyPool} (hp : p.Numbered given)
    (hroom : given + count < UInt32.size) (h : newPool p.nextId count e = .ok p' e') :
    Extends given count (.startingAt p.nextId) p' := by
  obtain ⟨hr, hdrawn⟩ := drawn_of_newPool h
  have hextends := replenish_extends (e := e) count (numbered_startingAt hp)
  rw [endState_of_ok hr] at hextends
  dsimp only at hextends
  rw [hdrawn, Nat.add_sub_cancel_left] at hextends
  exact hextends hroom

/-- The numbers of a device that was just set up. -/
theorem numbered_of_provision (hroom : count < UInt32.size)
    (h : Store.provision count now e = .ok s e') :
    s.oneTimePreKeys.Numbered count ∧ s.signedPreKeys.Numbered 2 := by
  obtain ⟨pool, e₁, identity, e₂, ring, hpool, -, hring, rfl⟩ := provision_eq_ok_iff.mp h
  have hfirst : (startingAt 1).Numbered 0 :=
    ⟨fun _ hm => absurd hm Std.ExtTreeMap.not_mem_empty, rfl⟩
  have hextends := newPool_extends (p := startingAt 1) hfirst (by rwa [Nat.zero_add]) hpool
  have hone : SignedPreKeyRing.Numbered 1 { keys := ∅, expiries := ∅, current := 0, nextId := 1 } :=
    ⟨Nat.le_refl 1, fun _ hm => absurd hm Std.ExtTreeMap.not_mem_empty,
      fun _ hm => absurd hm Std.ExtTreeMap.not_mem_empty⟩
  refine ⟨?_, hone.startingAt (by decide) hring⟩
  rw [← Nat.zero_add count]
  exact hextends.numbered

/-- A device that starts afresh goes on counting, and none of the earlier numbers refers to
anything. -/
theorem reprovision_follows (hp : s.oneTimePreKeys.Numbered given)
    (hroom : given + count < UInt32.size) (h : s.reprovision count now e = .ok s' e') :
    Follows given count s.oneTimePreKeys s'.oneTimePreKeys := by
  obtain ⟨ring, e₁, pool, e₂, identity, -, hpool, -, rfl⟩ := reprovision_eq_ok_iff.mp h
  have hextends := newPool_extends hp hroom hpool
  refine ⟨hextends.numbered, fun id hid hm => ?_⟩
  exact absurd (hextends.follows.mem id hid hm) Std.ExtTreeMap.not_mem_empty

theorem numbered_of_reprovision {n : Nat} (hr : s.signedPreKeys.Numbered n)
    (hroom : n + 1 < UInt32.size) (h : s.reprovision count now e = .ok s' e') :
    s'.signedPreKeys.Numbered (n + 1) := by
  obtain ⟨ring, e₁, pool, e₂, identity, hring, -, -, rfl⟩ := reprovision_eq_ok_iff.mp h
  exact hr.startingAt hroom hring

/-- A device that starts afresh makes a signed pre-key, a full pool and an identity. -/
theorem drawn_of_reprovision (h : s.reprovision count now e = .ok s' e') :
    e'.drawn = e.drawn + (count + 2) := by
  obtain ⟨ring, e₁, pool, e₂, identity, hring, hpool, hidentity, rfl⟩ :=
    reprovision_eq_ok_iff.mp h
  obtain ⟨-, rfl⟩ := IdentityKey.eq_of_generate hidentity
  have hone := SignedPreKeyRing.drawn_of_startingAt hring
  obtain ⟨-, hmade⟩ := drawn_of_newPool hpool
  change e₂.drawn + 1 = _
  omega

end Store

end MultiDevice
