import Mathlib.Logic.Function.Iterate
import MultiDevice.Ratchet.Basic

/-!
# The keys of a chain

A chain is determined by the key that it was started with and the number of steps since. Putting
keys aside moves a chain on and files the keys passed over under their numbers.

## Main definitions

* `Chain.later c n`: the chain `c` after `n` more steps
* `Chain.after key n`: the chain started with `key` after `n` steps
* `Chain.messageKeyAt key n`: the `n`-th message key of that chain

## Main results

* `Chain.advance_of_ne`, `Chain.advance_after`: one step
* `Chain.index_later`: the steps to a number lead there
* `Ratchet.skipKeys_later`, `Ratchet.skipKeys_after`: several steps, and the keys put aside
-/

namespace MultiDevice

namespace Chain

/-- Behind some number there is a next one. -/
theorem ne_lastIndex_of_lt {i j : UInt32} (h : i < j) : i ≠ lastIndex := by
  have hlast : lastIndex.toNat = 4294967295 := rfl
  have := UInt32.lt_iff_toNat_lt.mp h
  have := j.toNat_lt
  rw [Ne, ← UInt32.toNat_inj]
  omega

/-- A chain does not run out on the way to a number. -/
theorem index_add_le_lastIndex (c : Chain) (target : UInt32) :
    c.index.toNat + (target.toNat - c.index.toNat) ≤ lastIndex.toNat := by
  have hlast : lastIndex.toNat = 4294967295 := rfl
  have := c.index.toNat_lt
  have := target.toNat_lt
  omega

variable [CipherSuite]

/-- The chain one step on. -/
def next (c : Chain) : Chain := { key := c.nextKey, index := c.index + 1 }

/-- The chain after `n` more steps. -/
def later (c : Chain) (n : Nat) : Chain := next^[n] c

theorem later_zero (c : Chain) : c.later 0 = c := rfl

theorem later_succ (c : Chain) (n : Nat) : c.later (n + 1) = c.next.later n := rfl

theorem next_later (c : Chain) (n : Nat) : (c.later n).next = c.later (n + 1) :=
  (Function.iterate_succ_apply' next n c).symm

theorem advance_of_ne {c : Chain} (h : c.index ≠ lastIndex) :
    c.advance = .ok c.messageKey c.next := by
  rw [advance, if_neg h]
  rfl

theorem toNat_index_next {c : Chain} (h : c.index ≠ lastIndex) :
    c.next.index.toNat = c.index.toNat + 1 := by
  have hlast : lastIndex.toNat = 4294967295 := rfl
  rw [Ne, ← UInt32.toNat_inj] at h
  have := c.index.toNat_lt
  rw [next, UInt32.toNat_add]
  change (c.index.toNat + 1) % 2 ^ 32 = c.index.toNat + 1
  omega

theorem toNat_index_later {c : Chain} {n : Nat} (h : c.index.toNat + n ≤ lastIndex.toNat) :
    (c.later n).index.toNat = c.index.toNat + n := by
  induction n generalizing c with
  | zero => rfl
  | succ n ih =>
    have hnext : c.next.index.toNat = c.index.toNat + 1 := by
      refine toNat_index_next fun hlast => ?_
      rw [hlast] at h
      omega
    rw [later_succ, ih (by omega), hnext]
    omega

/-- The steps to a number lead there, unless the chain is past it. -/
theorem index_later (c : Chain) (target : UInt32) :
    (c.later (target.toNat - c.index.toNat)).index = max c.index target := by
  rw [← UInt32.toNat_inj, toNat_index_later (c.index_add_le_lastIndex target)]
  change _ = (if c.index ≤ target then target else c.index).toNat
  split
  next hle =>
    rw [UInt32.le_iff_toNat_le] at hle
    omega
  next hle =>
    rw [UInt32.le_iff_toNat_le] at hle
    omega

/-- The chain started with `key` after `n` steps. -/
def after (key : Block 32) : Nat → Chain
  | 0 => ofKey key
  | n + 1 => { key := (after key n).nextKey, index := (after key n).index + 1 }

/-- The `n`-th message key of the chain started with `key`. -/
def messageKeyAt (key : Block 32) (n : Nat) : Block 32 := (after key n).messageKey

theorem later_after (key : Block 32) (m n : Nat) : (after key m).later n = after key (m + n) := by
  induction n with
  | zero => rfl
  | succ n ih =>
    rw [← next_later, ih]
    rfl

theorem index_after (key : Block 32) (n : Nat) : (after key n).index = UInt32.ofNat n := by
  induction n with
  | zero => rfl
  | succ n ih => rw [after, ih, UInt32.ofNat_add]; rfl

theorem toNat_index_after (key : Block 32) {n : Nat} (h : n ≤ lastIndex.toNat) :
    (after key n).index.toNat = n := by
  have hlast : lastIndex.toNat = 4294967295 := rfl
  rw [index_after, UInt32.toNat_ofNat']
  omega

theorem advance_after (key : Block 32) {n : Nat} (h : n < lastIndex.toNat) :
    advance (after key n) = .ok (messageKeyAt key n) (after key (n + 1)) := by
  refine advance_of_ne fun hlast => ?_
  have := toNat_index_after key (Nat.le_of_lt h)
  rw [hlast] at this
  omega

end Chain

namespace Ratchet

variable [CipherSuite]

/-- Putting keys aside moves the chain on, and files each key passed over under its number. -/
theorem skipKeys_later (remote : PublicKey) {c : Chain} {count : Nat}
    (h : c.index.toNat + count ≤ Chain.lastIndex.toNat) (skipped : SkippedKeys) :
    ∃ skipped', skipKeys remote count c skipped = .ok (c.later count, skipped') ∧
      ∀ id : SkippedId, skipped'[id]? =
        if id.ratchetKey = remote.bytes ∧ c.index.toNat ≤ id.number.toNat ∧
            id.number.toNat < c.index.toNat + count then
          some (c.later (id.number.toNat - c.index.toNat)).messageKey
        else skipped[id]? := by
  -- Induction on how many keys are left to put aside, with the chain one step further each time.
  induction count generalizing c skipped with
  | zero =>
    refine ⟨skipped, rfl, fun id => ?_⟩
    rw [if_neg (by omega)]
  | succ count ih =>
    have hne : c.index ≠ Chain.lastIndex := by
      intro hlast
      rw [hlast] at h
      omega
    have hnext := Chain.toNat_index_next hne
    obtain ⟨skipped', hs, hget⟩ := ih (c := c.next) (by omega)
      (skipped.insert ⟨remote.bytes, c.index⟩ c.messageKey)
    refine ⟨skipped', ?_, fun id => ?_⟩
    · rw [skipKeys, Chain.advance_of_ne hne]
      exact hs
    · obtain ⟨ratchetKey, number⟩ := id
      rw [hget, Std.ExtTreeMap.getElem?_insert, hnext]
      simp only [Std.LawfulEqCmp.compare_eq_iff_eq, SkippedId.mk.injEq, ← UInt32.toNat_inj]
      by_cases hk : ratchetKey = remote.bytes
      · by_cases hn : number.toNat = c.index.toNat
        · rw [if_neg (by omega), if_pos ⟨hk.symm, hn.symm⟩, if_pos ⟨hk, by omega, by omega⟩, hn,
            Nat.sub_self, Chain.later_zero]
        · by_cases hb : c.index.toNat + 1 ≤ number.toNat ∧
              number.toNat < c.index.toNat + 1 + count
          · rw [if_pos ⟨hk, hb⟩, if_pos ⟨hk, by omega, by omega⟩, ← Chain.later_succ,
              show number.toNat - (c.index.toNat + 1) + 1 = number.toNat - c.index.toNat by omega]
          · rw [if_neg (fun h => hb h.2), if_neg (fun h => hn h.2.symm), if_neg (by omega)]
      · rw [if_neg (fun h => hk h.1), if_neg (fun h => hk h.1.symm), if_neg (fun h => hk h.1)]

theorem skipKeys_after (remote : PublicKey) (key : Block 32) {i count : Nat}
    (h : i + count ≤ Chain.lastIndex.toNat) (skipped : SkippedKeys) :
    ∃ skipped', skipKeys remote count (Chain.after key i) skipped =
        .ok (Chain.after key (i + count), skipped') ∧
      ∀ id : SkippedId, skipped'[id]? =
        if id.ratchetKey = remote.bytes ∧ i ≤ id.number.toNat ∧ id.number.toNat < i + count then
          some (Chain.messageKeyAt key id.number.toNat)
        else skipped[id]? := by
  have hindex : (Chain.after key i).index.toNat = i := Chain.toNat_index_after key (by omega)
  have hroom : (Chain.after key i).index.toNat + count ≤ Chain.lastIndex.toNat := by omega
  obtain ⟨skipped', hs, hget⟩ := skipKeys_later remote hroom skipped
  rw [Chain.later_after] at hs
  refine ⟨skipped', hs, fun id => ?_⟩
  rw [hget, hindex]
  split
  next hid =>
    rw [Chain.later_after, Nat.add_sub_cancel' hid.2.1]
    rfl
  next => rfl

end Ratchet

end MultiDevice
