import MultiDevice.Proofs.Key.Calls
import MultiDevice.Proofs.Key.Issued

/-!
# The succession of signed pre-keys

A ring numbers its signed pre-keys one after the other, and a newer key is told from an older one by
its larger number. The counter wraps. So the numbers grow as long as the last number that there is
was not given out, and the key after that one gets the number zero, which is smaller than all that
were held. Once all numbers were given out they come again, and where a number comes again whose key
is still kept, that old key is the answer.

## Main definitions

* `SignedPreKeyRing.created`: the keys that the calls to make one answered
* `SignedPreKeyRing.everHeld`: the numbers that a ring ever had in use

## Main results

* `SignedPreKeyRing.Call.issues`: a call gives out one number, or none
* `SignedPreKeyRing.everHeld_of_startingAt`: the numbers that a ring ever had are consecutive
* `SignedPreKeyRing.lt_created_iff`: exactly when a new key has a larger number than all before
-/

namespace MultiDevice

open Numbers (Issues)

namespace SignedPreKeyRing

/-- The key that a call to make one answers. -/
def Call.made? : Call → SignedPreKeyRing × Entropy → Option SignedPreKey
  | create now, t => answer? (createInPlace now) t
  | promote _, _ => none
  | expire _ _, _ => none
  | purge _, _ => none

/-- The keys that the calls to make one answered, in order. -/
def created : List Call → SignedPreKeyRing × Entropy → List SignedPreKey
  | [], _ => []
  | call :: calls, t => (call.made? t).toList ++ created calls (endState call.perform t)

/-- The numbers that were in use before the first call or after one of them. -/
def everHeld : List Call → SignedPreKeyRing × Entropy → Finset UInt32
  | [], t => t.1.numbers
  | call :: calls, t => t.1.numbers ∪ everHeld calls (endState call.perform t)

variable {r r' r₀ : SignedPreKeyRing} {first : UInt32} {now now' : Time} {e e' : Entropy}
  {key : SignedPreKey} {t t' : SignedPreKeyRing × Entropy}

theorem create_of_createInPlace (h : createInPlace now t = .ok key t') :
    t.1.create now t.2 = .ok (key, t'.1) t'.2 := by
  obtain ⟨r, e⟩ := t
  rw [createInPlace_eq] at h
  cases hcreate : r.create now e with
  | ok p e' =>
    rw [InPlace.ofDraw_of_ok hcreate] at h
    cases h
    rfl
  | error err e' =>
    rw [InPlace.ofDraw_of_error hcreate] at h
    cases h

/-- What a call drops gives no number out, and where a call fails nothing is dropped. -/
theorem issues_of_drops {f : SignedPreKeyRing → Draw SignedPreKeyRing}
    (h : ∀ r' e', f r e = .ok r' e' → Drops r r') :
    Issues 0 r.nextId (endState (InPlace.update f) (r, e)).1.nextId r.numbers
      (endState (InPlace.update f) (r, e)).1.numbers :=
  InPlace.endState_update_induction
    (p := fun t => Issues 0 r.nextId t.1.nextId r.numbers t.1.numbers)
    (fun r' e' hok => (h r' e' hok).issues) fun _ _ _ => .refl _ _

/-- A call that makes a key gives out one number, and the others give out none. -/
theorem Call.issues (call : Call) (t : SignedPreKeyRing × Entropy) :
    Issues (call.made? t).toList.length t.1.nextId (endState call.perform t).1.nextId t.1.numbers
      (endState call.perform t).1.numbers := by
  obtain ⟨r, e⟩ := t
  cases call with
  | create now =>
    rw [perform, endState_map, made?]
    cases h : createInPlace now (r, e) with
    | ok key t' =>
      rw [answer?_of_ok h, endState_of_ok h]
      exact create_issues (create_of_createInPlace h)
    | error err t' =>
      rw [createInPlace_eq, InPlace.ofDraw_eq_error_iff] at h
      obtain ⟨e', hcreate, rfl⟩ := h
      rw [createInPlace_eq, answer?_of_error (InPlace.ofDraw_of_error hcreate),
        endState_of_error (InPlace.ofDraw_of_error hcreate)]
      exact .refl _ _
  | promote id =>
    rw [perform_eq]
    refine issues_of_drops fun r' e' h => ?_
    obtain ⟨p, hpromote, rfl⟩ := map_eq_ok_iff.mp h
    exact promote_drops (Draw.ofExcept_eq_ok_iff.mp hpromote).1
  | expire id expiry =>
    rw [perform_eq]
    exact issues_of_drops fun r' e' h => expire_drops (Draw.ofExcept_eq_ok_iff.mp h).1
  | purge now =>
    rw [perform_eq]
    refine issues_of_drops fun r' e' h => ?_
    cases h
    exact r.purge_drops now

theorem numbers_subset_everHeld (calls : List Call) (t : SignedPreKeyRing × Entropy) :
    t.1.numbers ⊆ everHeld calls t := by
  cases calls with
  | nil => exact Finset.Subset.refl _
  | cons call calls => exact Finset.subset_union_left

/-- What was given out before and what a ring held since are consecutive numbers, as many more as
keys were made. -/
theorem everHeld_of_calls (calls : List Call) {given : Nat}
    (hstart : t.1.numbers ⊆ Numbers.range first given)
    (hnext : t.1.nextId = first + UInt32.ofNat given) :
    Numbers.range first given ∪ everHeld calls t =
        Numbers.range first (given + (created calls t).length) ∧
      (afterCalls calls t).1.nextId =
        first + UInt32.ofNat (given + (created calls t).length) := by
  -- Induction on the calls, from any count of numbers given out before.
  induction calls generalizing t given with
  | nil => exact ⟨Finset.union_eq_left.mpr hstart, hnext⟩
  | cons call calls ih =>
    obtain ⟨hgrown, hnext'⟩ := (call.issues t).union hstart hnext
    have hsubset : (endState call.perform t).1.numbers ⊆
        Numbers.range first (given + (call.made? t).toList.length) :=
      hgrown ▸ Finset.subset_union_right
    obtain ⟨hheld, hlast⟩ := ih hsubset hnext'
    rw [Nat.add_assoc, ← List.length_append] at hheld hlast
    refine ⟨?_, hlast⟩
    calc Numbers.range first given ∪ (t.1.numbers ∪ everHeld calls (endState call.perform t))
        = Numbers.range first given ∪ everHeld calls (endState call.perform t) := by
          rw [← Finset.union_assoc, Finset.union_eq_left.mpr hstart]
      _ = Numbers.range first (given + (call.made? t).toList.length) ∪
            everHeld calls (endState call.perform t) := by
          rw [← hgrown, Finset.union_assoc,
            Finset.union_eq_right.mpr (numbers_subset_everHeld calls _)]
      _ = Numbers.range first (given + (created (call :: calls) t).length) := hheld

/-- The numbers that a new ring ever has are those from its first one on, one more than keys were
made. -/
theorem everHeld_of_startingAt (h : startingAt first now e = .ok r₀ e') (calls : List Call) :
    everHeld calls (r₀, e') = Numbers.range first ((created calls (r₀, e')).length + 1) ∧
      (afterCalls calls (r₀, e')).1.nextId =
        first + UInt32.ofNat ((created calls (r₀, e')).length + 1) := by
  obtain ⟨hnumbers, hnext⟩ := numbers_startingAt h
  obtain ⟨hheld, hlast⟩ := everHeld_of_calls calls (t := (r₀, e')) hnumbers.le hnext
  rw [← hnumbers, Finset.union_eq_right.mpr (numbers_subset_everHeld calls (r₀, e'))] at hheld
  rw [Nat.add_comm]
  exact ⟨hheld, hlast⟩

/-- The numbers of new keys are consecutive, whatever else is done with a ring. So a new key has a
larger number than all that the ring ever had exactly as long as the last number that there is was
not given out, and a number that the ring never had exactly as long as there are numbers left. A key
that is still kept under the number is the answer in place of a new one. -/
theorem lt_created_iff (h : startingAt first now e = .ok r₀ e') (calls : List Call)
    (hcreate : createInPlace now' (afterCalls calls (r₀, e')) = .ok key t') :
    let earlier := everHeld calls (r₀, e')
    let made := (created calls (r₀, e')).length + 1
    key.id = first + UInt32.ofNat made ∧
      ((∀ id ∈ earlier, id < key.id) ↔ first.toNat + made < UInt32.size) ∧
      (key.id ∉ earlier ↔ made < UInt32.size) ∧
      ∀ old, (afterCalls calls (r₀, e')).1.keys[key.id]? = some old → key = old := by
  intro earlier made
  obtain ⟨hheld, hnext⟩ := everHeld_of_startingAt h calls
  have hfiled := (sound_afterCalls calls (t := (r₀, e')) (startingAt_sound h)).filed
  obtain ⟨hkey, -, -⟩ := eq_of_create (create_of_createInPlace hcreate)
  have hid : key.id = (afterCalls calls (r₀, e')).1.nextId := hkey ▸ hfiled.id_next now' _
  have hnumber : key.id = first + UInt32.ofNat made := hid.trans hnext
  refine ⟨hnumber, ?_, ?_, fun old hold => ?_⟩
  · change (∀ id ∈ everHeld calls (r₀, e'), id < key.id) ↔ _
    rw [hheld, hnumber]
    exact Numbers.lt_of_mem_range_iff
  · change key.id ∉ everHeld calls (r₀, e') ↔ _
    rw [hheld, hnumber]
    exact Numbers.notMem_range_iff
  · rw [hid] at hold
    rw [hkey, hold, Option.getD_some]

section Example

/-- Two keys are made, each is put in use and the one before it is dropped, and an attempt to make a
third one gets no randomness. -/
def handovers : List Call :=
  [.create .epoch, .promote 0xFFFFFFFD, .expire 0xFFFFFFFC .epoch, .purge .epoch,
    .create .epoch, .promote 0xFFFFFFFE, .expire 0xFFFFFFFD .epoch, .purge .epoch, .create .epoch]

/-- The key that has the last number is newer than all that the ring ever had, though one of them is
left. -/
theorem lt_created_of_handovers :
    ∃ r₀ e', startingAt 0xFFFFFFFC .epoch refusingFourth = .ok r₀ e' ∧
      (afterCalls handovers (r₀, e')).1.ids = [0xFFFFFFFE] ∧
      ∃ key t', createInPlace .epoch (afterCalls handovers (r₀, e')) = .ok key t' ∧
        key.id = 0xFFFFFFFF ∧ ∀ id ∈ everHeld handovers (r₀, e'), id < key.id := by
  have hrun : ∀ r₀ e', startingAt 0xFFFFFFFC .epoch refusingFourth = .ok r₀ e' →
      (afterCalls handovers (r₀, e')).1.ids = [0xFFFFFFFE] ∧
        (created handovers (r₀, e')).length = 2 ∧
        (answer? (createInPlace .epoch) (afterCalls handovers (r₀, e'))).isSome = true := by
    rintro r₀ e' ⟨⟩
    decide +kernel
  obtain ⟨r₀, e', hstart⟩ : ∃ r₀ e', startingAt 0xFFFFFFFC .epoch refusingFourth = .ok r₀ e' :=
    ⟨_, _, rfl⟩
  obtain ⟨hids, hmade, hanswer⟩ := hrun r₀ e' hstart
  obtain ⟨key, hkey⟩ := Option.isSome_iff_exists.mp hanswer
  obtain ⟨t', hcreate⟩ := exists_of_answer? hkey
  obtain ⟨hnumber, hlarger, -⟩ := lt_created_iff hstart handovers hcreate
  rw [hmade] at hnumber hlarger
  exact ⟨r₀, e', hstart, hids, key, t', hcreate, hnumber, hlarger.mpr (by decide)⟩

/-- After the key with the last number a ring makes one with the number zero. -/
theorem exists_created_lt :
    ∃ r₀ e' key t', startingAt 0xFFFFFFFF .epoch .counting = .ok r₀ e' ∧
      createInPlace .epoch (afterCalls [] (r₀, e')) = .ok key t' ∧
      ¬∀ id ∈ everHeld [] (r₀, e'), id < key.id := by
  refine ⟨_, _, _, _, rfl, rfl, fun h => ?_⟩
  exact absurd (h 0xFFFFFFFF (by decide +kernel)) (by decide +kernel)

end Example

end SignedPreKeyRing

end MultiDevice
