import Mathlib.Data.Finset.Card
import Mathlib.Data.Finset.Range
import MultiDevice.Proofs.Key.Numbering

/-!
# Which numbers were given out

The numbers of pre-keys are given out one after the other, and after the last one comes the first
one again. Whatever is done with the pre-keys of a device, the numbers that were given out so far
are those from one up to the next one, around as often as need be. As long as not all numbers were
given out, there was no going around.

## Main definitions

* `Numbers.range`: numbers one after the other, around if there are too many
* `Numbers.Issues`: a step that gives numbers out
* `SignedPreKeyRing.numbers`, `OneTimePreKeyPool.numbers`: the numbers that are in use

## Main results

* `Numbers.card_range`: as many numbers, or all that there are
* `Numbers.lt_of_mem_range_iff`, `Numbers.notMem_range_iff`: when the next number is larger than
  those before, and when it is new
* `Numbers.Issues.union`: how the numbers given out grow
* `OneTimePreKeyPool.generate_issues`: as many numbers are given out as draws were answered
* `Store.numbers_newPool`: the numbers of a new pool
-/

namespace MultiDevice

namespace Numbers

/-- The `n` numbers from `first` on, around if there are too many. -/
def range (first : UInt32) (n : Nat) : Finset UInt32 :=
  (Finset.range n).image fun i => first + UInt32.ofNat i

variable {first next next' next'' id : UInt32} {n made more given : Nat}
  {held held' held'' used : Finset UInt32}

theorem mem_range : id ∈ range first n ↔ ∃ i < n, first + UInt32.ofNat i = id := by
  simp only [range, Finset.mem_image, Finset.mem_range]

theorem range_one (first : UInt32) : range first 1 = {first} := by
  simp [range]

theorem range_add (first : UInt32) (m n : Nat) :
    range first (m + n) = range first m ∪ range (first + UInt32.ofNat m) n := by
  ext id
  simp only [Finset.mem_union, mem_range]
  constructor
  · rintro ⟨i, hi, rfl⟩
    by_cases him : i < m
    · exact .inl ⟨i, him, rfl⟩
    · obtain ⟨j, rfl⟩ := Nat.exists_eq_add_of_le (Nat.le_of_not_lt him)
      refine .inr ⟨j, by omega, ?_⟩
      rw [UInt32.ofNat_add, UInt32.add_assoc]
  · rintro (⟨i, hi, rfl⟩ | ⟨j, hj, rfl⟩)
    · exact ⟨i, by omega, rfl⟩
    · refine ⟨m + j, by omega, ?_⟩
      rw [UInt32.ofNat_add, UInt32.add_assoc]

/-- Beyond the last number there is none that was not given out. -/
theorem range_eq_of_le (h : UInt32.size ≤ n) : range first n = range first UInt32.size := by
  -- The counter wraps, so the number at `i` is also the one at the remainder of `i`.
  ext id
  simp only [mem_range]
  constructor
  · rintro ⟨i, -, rfl⟩
    exact ⟨i % UInt32.size, Nat.mod_lt _ (by decide), by rw [UInt32.ofNat_mod_size]⟩
  · rintro ⟨i, hi, rfl⟩
    exact ⟨i, Nat.lt_of_lt_of_le hi h, rfl⟩

theorem card_range_of_le (h : n ≤ UInt32.size) : (range first n).card = n := by
  have hinj : Set.InjOn (fun i => first + UInt32.ofNat i) (Finset.range n) := by
    intro i hi j hj hij
    simp only [Finset.coe_range, Set.mem_Iio] at hi hj
    have hnat := congrArg UInt32.toNat ((UInt32.add_right_inj first).mp hij)
    rwa [UInt32.toNat_ofNat_of_lt' (Nat.lt_of_lt_of_le hi h),
      UInt32.toNat_ofNat_of_lt' (Nat.lt_of_lt_of_le hj h)] at hnat
  rw [range, Finset.card_image_of_injOn hinj, Finset.card_range]

/-- So many numbers are that many different ones, or all. -/
theorem card_range (first : UInt32) (n : Nat) : (range first n).card = min n UInt32.size := by
  rcases Nat.le_total n UInt32.size with hle | hle
  · rw [card_range_of_le hle, Nat.min_eq_left hle]
  · rw [range_eq_of_le hle, card_range_of_le (Nat.le_refl _), Nat.min_eq_right hle]

/-- The number after some others is larger than all of them exactly when the counter did not
wrap. -/
theorem lt_of_mem_range_iff :
    (∀ id ∈ range first n, id < first + UInt32.ofNat n) ↔ first.toNat + n < UInt32.size := by
  have hsize : UInt32.size = 4294967296 := rfl
  have hfirst := first.toNat_lt
  constructor
  · intro h
    by_contra hwrapped
    have hlast : first + UInt32.ofNat (UInt32.size - 1 - first.toNat) ∈ range first n :=
      mem_range.mpr ⟨_, by omega, rfl⟩
    have hlt := UInt32.lt_iff_toNat_lt.mp (h _ hlast)
    have hbound := (first + UInt32.ofNat n).toNat_lt
    rw [UInt32.toNat_add, UInt32.toNat_ofNat'] at hlt
    omega
  · rintro h id hid
    obtain ⟨i, hi, rfl⟩ := mem_range.mp hid
    rw [UInt32.lt_iff_toNat_lt, UInt32.toNat_add, UInt32.toNat_add, UInt32.toNat_ofNat',
      UInt32.toNat_ofNat']
    omega

/-- The number after some others is none of them exactly when there are numbers left. -/
theorem notMem_range_iff : first + UInt32.ofNat n ∉ range first n ↔ n < UInt32.size := by
  constructor
  · intro h
    by_contra hused
    refine h (mem_range.mpr ⟨n % UInt32.size, ?_, by rw [UInt32.ofNat_mod_size]⟩)
    exact Nat.lt_of_lt_of_le (Nat.mod_lt _ (by decide)) (Nat.le_of_not_lt hused)
  · intro h hmem
    obtain ⟨i, hi, heq⟩ := mem_range.mp hmem
    have hnat := congrArg UInt32.toNat ((UInt32.add_right_inj first).mp heq)
    rw [UInt32.toNat_ofNat_of_lt' (Nat.lt_trans hi h), UInt32.toNat_ofNat_of_lt' h] at hnat
    omega

/-- As long as not all numbers were given out, the numbers from one on grow. -/
theorem toNat_of_card (h : (range 1 n).card < UInt32.size) {i : Nat} (hi : i < n) :
    (1 + UInt32.ofNat i).toNat = i + 1 := by
  have hn : n < UInt32.size := by
    rw [card_range] at h
    omega
  have hone : 1 + UInt32.ofNat i = UInt32.ofNat (1 + i) := (UInt32.ofNat_add 1 i).symm
  rw [hone, UInt32.toNat_ofNat_of_lt' (by omega), Nat.add_comm]

/-- A step gives out the `made` numbers from `next` on. Numbers may also go out of use. -/
structure Issues (made : Nat) (next next' : UInt32) (held held' : Finset UInt32) : Prop where
  next_eq : next' = next + UInt32.ofNat made
  subset : held' ⊆ held ∪ range next made
  range_subset : range next made ⊆ held'

namespace Issues

/-- Nothing is given out. -/
theorem of_subset (h : held' ⊆ held) : Issues 0 next next held held' where
  next_eq := (UInt32.add_zero next).symm
  subset := h.trans Finset.subset_union_left
  range_subset := Finset.empty_subset _

theorem refl (next : UInt32) (held : Finset UInt32) : Issues 0 next next held held :=
  of_subset (Finset.Subset.refl held)

/-- The next number is given out, and the others stay. -/
theorem one (h : ∀ id, id ∈ held' ↔ id = next ∨ id ∈ held) :
    Issues 1 next (next + 1) held held' := by
  refine ⟨rfl, fun id hid => ?_, fun id hid => ?_⟩
  · rw [range_one, Finset.mem_union, Finset.mem_singleton]
    exact ((h id).mp hid).symm
  · rw [range_one, Finset.mem_singleton] at hid
    exact (h id).mpr (.inl hid)

/-- The numbers of a first step are still in use after a second one. -/
theorem trans (h : Issues made next next' held held') (h' : Issues more next' next'' held' held'')
    (hkept : held' ⊆ held'') : Issues (made + more) next next'' held held'' where
  next_eq := by rw [h'.next_eq, h.next_eq, UInt32.ofNat_add, UInt32.add_assoc]
  subset := by
    rw [range_add, ← h.next_eq, ← Finset.union_assoc]
    exact h'.subset.trans (Finset.union_subset_union_left h.subset)
  range_subset := by
    rw [range_add, ← h.next_eq]
    exact Finset.union_subset (h.range_subset.trans hkept) h'.range_subset

/-- What was given out so far is what was before, and the numbers that the step gives out. -/
theorem union (h : Issues made next next' held held') (hheld : held ⊆ range first given)
    (hnext : next = first + UInt32.ofNat given) :
    range first given ∪ held' = range first (given + made) ∧
      next' = first + UInt32.ofNat (given + made) := by
  subst hnext
  refine ⟨?_, by rw [h.next_eq, UInt32.ofNat_add, UInt32.add_assoc]⟩
  rw [range_add]
  apply Finset.Subset.antisymm
  · refine Finset.union_subset Finset.subset_union_left (h.subset.trans ?_)
    exact Finset.union_subset_union_left hheld
  · exact Finset.union_subset_union_right h.range_subset

end Issues

end Numbers

open Numbers (Issues)

/-! ## One-time pre-keys -/

namespace OneTimePreKeyPool

variable {p p' : OneTimePreKeyPool} {e e' : Entropy} {id : UInt32}

/-- The numbers in use. -/
def numbers (p : OneTimePreKeyPool) : Finset UInt32 := p.keys.keys.toFinset

theorem mem_numbers : id ∈ p.numbers ↔ id ∈ p.keys := by
  rw [numbers, List.mem_toFinset, Std.ExtTreeMap.mem_keys]

theorem card_numbers (p : OneTimePreKeyPool) : p.numbers.card = p.count := by
  rw [numbers, List.toFinset_card_of_nodup Std.ExtTreeMap.nodup_keys, Std.ExtTreeMap.length_keys]
  rfl

theorem add_issues (p : OneTimePreKeyPool) (secret : Secret) :
    Issues 1 p.nextId (p.add ⟨p.nextId, secret⟩).nextId p.numbers
      (p.add ⟨p.nextId, secret⟩).numbers := by
  apply Issues.one
  intro id
  rw [mem_numbers, mem_numbers]
  exact Entries.mem_insert_iff

/-- As many numbers are given out as draws were answered, whether all keys are made or not. -/
theorem generate_issues (count : Nat) (p : OneTimePreKeyPool) (e : Entropy) :
    Issues ((endState (generate count) (p, e)).2.drawn - e.drawn) p.nextId
      (endState (generate count) (p, e)).1.nextId p.numbers
      (endState (generate count) (p, e)).1.numbers := by
  let R (made : Nat) (p p' : OneTimePreKeyPool) : Prop :=
    Issues made p.nextId p'.nextId p.numbers p'.numbers ∧ p.numbers ⊆ p'.numbers
  refine (endState_generate_induction (R := R) (fun p => ⟨.refl _ _, subset_rfl⟩) ?_ count p e).1
  rintro p secret made p' ⟨hrest, hkept⟩
  refine ⟨(p.add_issues secret).trans hrest hkept, fun id hid => hkept ?_⟩
  rw [mem_numbers] at hid ⊢
  exact Std.ExtTreeMap.mem_insert.mpr (.inr hid)

theorem replenish_issues (target : Nat) (p : OneTimePreKeyPool) (e : Entropy) :
    Issues ((endState (replenish target) (p, e)).2.drawn - e.drawn) p.nextId
      (endState (replenish target) (p, e)).1.nextId p.numbers
      (endState (replenish target) (p, e)).1.numbers := by
  rw [endState_replenish]
  exact generate_issues _ p e

theorem remove_issues (p : OneTimePreKeyPool) (id : UInt32) :
    Issues 0 p.nextId (p.remove id).2.nextId p.numbers (p.remove id).2.numbers := by
  refine .of_subset fun other hother => ?_
  rw [mem_numbers] at hother ⊢
  exact (Entries.mem_erase_iff.mp hother).2

end OneTimePreKeyPool

/-- The numbers of a new pool are as many as were asked for, from the first one on. -/
theorem Store.numbers_newPool {first : UInt32} {count : Nat} {p : OneTimePreKeyPool}
    {e e' : Entropy} (h : newPool first count e = .ok p e') :
    p.numbers = Numbers.range first count ∧ p.nextId = first + UInt32.ofNat count := by
  obtain ⟨hreplenish, hdrawn⟩ := drawn_of_newPool h
  have hissues := OneTimePreKeyPool.replenish_issues count (.startingAt first) e
  rw [endState_of_ok hreplenish] at hissues
  dsimp only at hissues
  rw [hdrawn, Nat.add_sub_cancel_left] at hissues
  refine ⟨Finset.Subset.antisymm ?_ hissues.range_subset, hissues.next_eq⟩
  have hsubset := hissues.subset
  rwa [show (OneTimePreKeyPool.startingAt first).numbers = ∅ from rfl, Finset.empty_union]
    at hsubset

/-! ## Signed pre-keys -/

namespace SignedPreKeyRing

variable {r r' : SignedPreKeyRing} {now : Time} {e e' : Entropy} {id : UInt32}

/-- The numbers in use. -/
def numbers (r : SignedPreKeyRing) : Finset UInt32 := r.ids.toFinset

theorem mem_numbers : id ∈ r.numbers ↔ id ∈ r.keys := by
  rw [numbers, List.mem_toFinset, ids, Std.ExtTreeMap.mem_keys]

theorem create_issues {key : SignedPreKey} (h : r.create now e = .ok (key, r') e') :
    Issues 1 r.nextId r'.nextId r.numbers r'.numbers := by
  obtain ⟨-, rfl, -⟩ := eq_of_create h
  apply Issues.one
  intro id
  rw [mem_numbers, mem_numbers]
  exact Entries.mem_insert_iff

/-- Dropping keys gives no number out. -/
theorem Drops.issues (h : Drops r r') : Issues 0 r.nextId r'.nextId r.numbers r'.numbers := by
  rw [h.nextId]
  refine .of_subset fun id hid => ?_
  rw [mem_numbers] at hid ⊢
  obtain ⟨key, hkey⟩ := Entries.exists_of_mem hid
  exact Entries.mem_of_getElem? (h.keys id key hkey)

/-- A new ring has one number in use. -/
theorem numbers_startingAt {first : UInt32} (h : startingAt first now e = .ok r e') :
    r.numbers = Numbers.range first 1 ∧ r.nextId = first + UInt32.ofNat 1 := by
  obtain ⟨rfl, -⟩ := eq_of_startingAt h
  rw [Numbers.range_one]
  exact ⟨rfl, rfl⟩

end SignedPreKeyRing

end MultiDevice
