import MultiDevice.Proofs.CipherSuite
import MultiDevice.Proofs.InPlace
import MultiDevice.Proofs.Ratchet.Chain

/-!
# Putting the keys of overtaken messages aside

Before a message is read out of turn, the keys of the messages before it are put aside: while the
chain is behind the message, its next key is taken and filed. How far ahead a message may be is
compared with a sum that stops at the last number. No message has a larger number, so the comparison
says the same as one with the exact sum, and the loop ends before the chain runs out.

## Main definitions

* `Ratchet.fileNext`: one round of the loop
* `Ratchet.fileWhileBehind`: the loop, which counts its rounds
* `Ratchet.skipByLoop`: `Ratchet.skip` with this loop, in place

## Main results

* `Ratchet.fileWhileBehind_of_skipKeys`: what the loop comes to
* `Ratchet.exists_put_aside`: which keys are put aside, where the chain is then, and when the
  ratchet refuses
-/

namespace MultiDevice

namespace Ratchet

/-- A sum that stops at the last number is below the same numbers as the exact sum. -/
theorem saturated_lt_iff {n : Nat} {target : UInt32} :
    min n Chain.lastIndex.toNat < target.toNat ↔ n < target.toNat := by
  have hlast : Chain.lastIndex.toNat = 4294967295 := rfl
  have := target.toNat_lt
  omega

section Loop

variable [CipherSuite]

/-- Takes the next message key of a chain and puts it aside under its number. -/
def fileNext (remote : PublicKey) : EStateM Error (Chain × SkippedKeys) Unit :=
  fun (chain, skipped) =>
    match chain.advance with
    | .ok key next => .ok () (next, skipped.insert ⟨remote.bytes, chain.index⟩ key)
    | .error err next => .error err (next, skipped)

variable {remote : PublicKey} {target : UInt32} {chain : Chain} {skipped : SkippedKeys}

theorem fileNext_of_ne (h : chain.index ≠ Chain.lastIndex) :
    fileNext remote (chain, skipped) =
      .ok () (chain.next, skipped.insert ⟨remote.bytes, chain.index⟩ chain.messageKey) := by
  simp only [fileNext, Chain.advance_of_ne h]

/-- Each round brings the chain nearer to where the loop ends. -/
theorem behind_of_fileNext {s t : Chain × SkippedKeys} (hlt : s.1.index < target)
    (h : fileNext remote s = .ok () t) :
    target.toNat - t.1.index.toNat < target.toNat - s.1.index.toNat := by
  have hne := Chain.ne_lastIndex_of_lt hlt
  rw [fileNext_of_ne hne] at h
  cases h
  have hnext := Chain.toNat_index_next hne
  rw [UInt32.lt_iff_toNat_lt] at hlt
  change target.toNat - s.1.next.index.toNat < target.toNat - s.1.index.toNat
  omega

/-- Puts message keys aside while the chain is behind `target`. The answer is how many, and what was
done before a failure stays done. -/
def fileWhileBehind (remote : PublicKey) (target : UInt32) (s : Chain × SkippedKeys) :
    EStateM.Result Error (Chain × SkippedKeys) Nat :=
  if _h : s.1.index < target then
    match _h' : fileNext remote s with
    | .error err t => .error err t
    | .ok () t =>
      match fileWhileBehind remote target t with
      | .ok rounds u => .ok (rounds + 1) u
      | .error err u => .error err u
  else .ok 0 s
termination_by target.toNat - s.1.index.toNat
decreasing_by exact behind_of_fileNext _h _h'

/-- The loop comes to what `skipKeys` says, for the number of keys that the chain is behind. -/
theorem fileWhileBehind_of_skipKeys {p : Chain × SkippedKeys}
    (h : skipKeys remote (target.toNat - chain.index.toNat) chain skipped = .ok p) :
    fileWhileBehind remote target (chain, skipped) =
      .ok (target.toNat - chain.index.toNat) p := by
  -- Induction on how far the chain is behind, which is how often the loop goes round.
  generalize hcount : target.toNat - chain.index.toNat = count at h ⊢
  induction count generalizing chain skipped with
  | zero =>
    have hge : ¬chain.index < target := by
      rw [UInt32.lt_iff_toNat_lt]
      omega
    rw [fileWhileBehind, dif_neg hge]
    cases h
    rfl
  | succ count ih =>
    have hlt : chain.index < target := by
      rw [UInt32.lt_iff_toNat_lt]
      omega
    have hne := Chain.ne_lastIndex_of_lt hlt
    have hnext := Chain.toNat_index_next hne
    rw [skipKeys, Chain.advance_of_ne hne] at h
    have hrest := ih (by omega) h
    rw [fileWhileBehind, dif_pos hlt]
    split
    next err t herr => simp [fileNext_of_ne hne] at herr
    next t hok =>
      rw [fileNext_of_ne hne] at hok
      cases hok
      rw [hrest]

/-- Puts aside the keys of the messages before number `target` by the loop, in place. The answer is
how many. -/
def skipByLoop (target : UInt32) : InPlace Ratchet Nat := fun (r, e) =>
  match r.remote, r.receiving with
  | some remote, some chain =>
    if min (chain.index.toNat + r.maxSkip.toNat) Chain.lastIndex.toNat < target.toNat then
      .error .tooManySkipped (r, e)
    else
      match fileWhileBehind remote target (chain, r.skipped) with
      | .ok rounds (chain, skipped) => .ok rounds ({ r with receiving := some chain, skipped }, e)
      | .error err (chain, skipped) => .error err ({ r with receiving := some chain, skipped }, e)
  | _, _ => .ok 0 (r, e)

/-- Exactly the keys of the messages between the chain and `target` are put aside, each under its
number, and the chain is then at `target` unless it was there already. The ratchet refuses, and is
left as it was, exactly when `target` is further ahead than it allows. Nothing else goes wrong. -/
theorem exists_put_aside {r : Ratchet} (hremote : r.remote = some remote)
    (hreceiving : r.receiving = some chain) (target : UInt32) :
    let rounds := target.toNat - chain.index.toNat
    let tooMany := chain.index.toNat + r.maxSkip.toNat < target.toNat
    (chain.later rounds).index = max chain.index target ∧
      ∃ skipped : SkippedKeys,
        (∀ id : SkippedId, skipped[id]? =
          if id.ratchetKey = remote.bytes ∧ chain.index ≤ id.number ∧ id.number < target then
            some (chain.later (id.number.toNat - chain.index.toNat)).messageKey
          else r.skipped[id]?) ∧
        (∀ e, skipByLoop target (r, e) =
          if tooMany then .error .tooManySkipped (r, e)
          else .ok rounds ({ r with receiving := some (chain.later rounds), skipped }, e)) ∧
        r.skip target =
          if tooMany then .error .tooManySkipped
          else .ok { r with receiving := some (chain.later rounds), skipped } := by
  intro rounds tooMany
  obtain ⟨skipped, hskip, hget⟩ :=
    skipKeys_later remote (chain.index_add_le_lastIndex target) r.skipped
  refine ⟨chain.index_later target, skipped, fun id => ?_, fun e => ?_, ?_⟩
  · have hrange : chain.index.toNat ≤ id.number.toNat ∧
        id.number.toNat < chain.index.toNat + (target.toNat - chain.index.toNat) ↔
        chain.index ≤ id.number ∧ id.number < target := by
      rw [UInt32.le_iff_toNat_le, UInt32.lt_iff_toNat_lt]
      omega
    rw [hget]
    simp only [hrange]
  · simp only [skipByLoop, hremote, hreceiving, saturated_lt_iff, fileWhileBehind_of_skipKeys hskip]
    rfl
  · simp only [skip, hremote, hreceiving, saturated_lt_iff]
    rw [hskip]

end Loop

section NearlyExhausted

attribute [local instance] CipherSuite.transparent

/-- A ratchet with two keys before the last number. Its allowance goes beyond that number. -/
def nearlyExhausted : Ratchet where
  associatedData := .zero 64
  secret := .zero 32
  remote := some ⟨.zero 32⟩
  rootKey := .zero 32
  sending := none
  receiving := some { key := .zero 32, index := 0xFFFFFFFD }
  previousLength := 0
  skipped := ∅
  maxSkip := 1000

/-- For a message with the last number the two keys before it are put aside, and the chain does not
run out. -/
theorem exists_put_aside_for_last :
    ∃ (skipped : SkippedKeys) (chain : Chain),
      (∀ id : SkippedId, id ∈ skipped ↔
        id.ratchetKey = .zero 32 ∧ (id.number = 0xFFFFFFFD ∨ id.number = 0xFFFFFFFE)) ∧
      chain.index = Chain.lastIndex ∧
      ∀ e, skipByLoop Chain.lastIndex (nearlyExhausted, e) =
        .ok 2 ({ nearlyExhausted with receiving := some chain, skipped }, e) := by
  obtain ⟨hindex, skipped, hget, hloop, -⟩ :=
    exists_put_aside (r := nearlyExhausted) rfl rfl Chain.lastIndex
  refine ⟨skipped, _, fun id => ?_, hindex, hloop⟩
  have hnumber : 0xFFFFFFFD ≤ id.number ∧ id.number < Chain.lastIndex ↔
      id.number = 0xFFFFFFFD ∨ id.number = 0xFFFFFFFE := by
    rw [UInt32.le_iff_toNat_le, UInt32.lt_iff_toNat_lt, ← UInt32.toNat_inj, ← UInt32.toNat_inj]
    change 4294967293 ≤ id.number.toNat ∧ id.number.toNat < 4294967295 ↔
      id.number.toNat = 4294967293 ∨ id.number.toNat = 4294967294
    omega
  rw [Std.ExtTreeMap.mem_iff_isSome_getElem?, hget, ← hnumber]
  split
  next h => exact iff_of_true rfl h
  next h => exact iff_of_false (by simp [nearlyExhausted]) h

end NearlyExhausted

end Ratchet

end MultiDevice
