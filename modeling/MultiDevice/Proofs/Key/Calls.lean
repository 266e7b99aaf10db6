import MultiDevice.Proofs.InPlace
import MultiDevice.Proofs.Key.Ring

/-!
# What is done with a ring of signed pre-keys

A device makes signed pre-keys, puts them in use, schedules them to be dropped and drops those that
are due, in any order and with any numbers and times, and randomness may be refused on the way. Each
of these calls changes the ring in several steps. They are written out here one by one, in the order
in which a ring that is changed in place sees them, and come to what the functions of the ring say.
So a call that fails has changed nothing, and a cleanup that drops one key after the other drops
what is due at its start.

## Main definitions

* `SignedPreKeyRing.createInPlace` and its siblings: the calls step by step
* `SignedPreKeyRing.Call`, `SignedPreKeyRing.afterCalls`: calls, and the ring after them
* `SignedPreKeyRing.Promotes`, `SignedPreKeyRing.Purges`: what becomes of a ring when a key is put
  in use and when it is cleaned up

## Main results

* `SignedPreKeyRing.createInPlace_eq` and its siblings: what the steps come to
* `SignedPreKeyRing.sound_afterCalls`: rings are sound after any calls
* `SignedPreKeyRing.orderly_after_calls`: what holds of a ring after any calls, and what the next
  call does to it
-/

namespace MultiDevice

open InPlace (amend look draw ofDraw update)

namespace SignedPreKeyRing

/-! ## Step by step -/

/-- Makes the next key without putting it in use. Its number is used up and the key is filed once it
was drawn. -/
def createInPlace (now : Time) : InPlace SignedPreKeyRing SignedPreKey := do
  let id := (← look).nextId
  let key ← draw (SignedPreKey.generate id now)
  amend fun r => { r with nextId := r.nextId + 1 }
  amend fun r => { r with keys := r.keys.insertIfNew id key }
  return ((← look).get? id).getD key

/-- Puts a retained key in use: its expiry is cancelled first. -/
def promoteInPlace (id : UInt32) : InPlace SignedPreKeyRing (Option UInt32) := do
  if id ∈ (← look).keys then
    amend fun r => { r with expiries := r.expiries.erase id }
    let previous := (← look).current
    amend fun r => { r with current := id }
    return if previous = id then none else some previous
  else throw (.unknownSignedPreKey id)

/-- Schedules a superseded key to be dropped. -/
def expireInPlace (id : UInt32) (expiry : Time) : InPlace SignedPreKeyRing Unit := do
  if id = (← look).current then throw .currentCannotExpire
  else if id ∈ (← look).keys then amend fun r => { r with expiries := r.expiries.insert id expiry }
  else return ()

/-- Drops keys one after the other, each with its expiry. -/
def dropInPlace : List UInt32 → InPlace SignedPreKeyRing Unit
  | [] => return ()
  | id :: ids => do
    amend fun r => { r with expiries := r.expiries.erase id }
    amend fun r => { r with keys := r.keys.erase id }
    dropInPlace ids

/-- Looks up which keys are due and drops them. -/
def purgeInPlace (now : Time) : InPlace SignedPreKeyRing (List UInt32) := do
  let r ← look
  let due := r.expiries.toList.filter fun (id, expiry) => id != r.current && decide (expiry ≤ now)
  dropInPlace (due.map Prod.fst)
  return due.map Prod.fst

/-! ## What the steps come to -/

variable {r r' : SignedPreKeyRing} {now : Time} {e e' : Entropy} {id : UInt32}

/-- Filing a key unless there is one is the same as filing again the one that there is. -/
theorem insertIfNew_eq (keys : Std.ExtTreeMap UInt32 SignedPreKey) (id : UInt32)
    (key : SignedPreKey) : keys.insertIfNew id key = keys.insert id ((keys[id]?).getD key) := by
  apply Std.ExtTreeMap.ext_getElem?
  intro other
  rw [Std.ExtTreeMap.getElem?_insertIfNew, Std.ExtTreeMap.getElem?_insert]
  by_cases hother : compare id other = .eq
  · obtain rfl := Std.LawfulEqCmp.compare_eq_iff_eq.mp hother
    simp only [Std.ExtTreeMap.mem_iff_isSome_getElem?]
    cases keys[id]? <;> simp
  · simp [hother]

theorem createInPlace_eq (now : Time) : createInPlace now = ofDraw fun r => r.create now := by
  funext ⟨r, e⟩
  simp only [createInPlace, InPlace.look_bind, InPlace.draw_bind]
  cases h : SignedPreKey.generate r.nextId now e with
  | error err e' =>
    have hcreate : r.create now e = .error err e' := bind_of_error h
    rw [InPlace.ofDraw_of_error hcreate]
  | ok key e' =>
    have hcreate : r.create now e = .ok ((r.keys[r.nextId]?).getD key,
        { r with
          keys := r.keys.insert r.nextId ((r.keys[r.nextId]?).getD key)
          nextId := r.nextId + 1 }) e' := bind_of_ok h
    rw [InPlace.ofDraw_of_ok hcreate]
    simp only [InPlace.amend_bind, InPlace.look_bind, get?, insertIfNew_eq,
      Std.ExtTreeMap.getElem?_insert_self, Option.getD_some]
    rfl

theorem promoteInPlace_eq (id : UInt32) :
    promoteInPlace id = ofDraw fun r => Draw.ofExcept (r.promote id) := by
  funext ⟨r, e⟩
  simp only [promoteInPlace, InPlace.look_bind]
  by_cases hid : id ∈ r.keys
  · have hpromote : Draw.ofExcept (r.promote id) e =
        .ok (if r.current = id then none else some r.current,
          { r with expiries := r.expiries.erase id, current := id }) e := by
      rw [promote, if_pos hid]
      rfl
    rw [if_pos hid, InPlace.ofDraw_of_ok hpromote]
    rfl
  · have hpromote : Draw.ofExcept (r.promote id) e = .error (.unknownSignedPreKey id) e := by
      rw [promote, if_neg hid]
      rfl
    rw [if_neg hid, InPlace.ofDraw_of_error hpromote]
    rfl

theorem expireInPlace_eq (id : UInt32) (expiry : Time) :
    expireInPlace id expiry = update fun r => Draw.ofExcept (r.expire id expiry) := by
  funext ⟨r, e⟩
  simp only [expireInPlace, InPlace.look_bind, update, expire]
  by_cases hcurrent : id = r.current
  · rw [if_pos hcurrent, if_pos hcurrent]
    rfl
  · rw [if_neg hcurrent, if_neg hcurrent, InPlace.look_bind]
    by_cases hid : id ∈ r.keys
    · rw [if_pos hid, if_pos hid]
      rfl
    · rw [if_neg hid, if_neg hid]
      rfl

theorem dropInPlace_eq (ids : List UInt32) (r : SignedPreKeyRing) (e : Entropy) :
    dropInPlace ids (r, e) = .ok ()
      ({ r with
          keys := ids.foldl (fun keys id => keys.erase id) r.keys
          expiries := ids.foldl (fun expiries id => expiries.erase id) r.expiries }, e) := by
  induction ids generalizing r with
  | nil => rfl
  | cons id ids ih => exact ih _

/-- The numbers that a cleanup answers are those of the keys that are due. -/
theorem mem_purge_fst : id ∈ (r.purge now).1 ↔ r.isDue now id = true := by
  rw [purge, Std.ExtTreeMap.mem_keys, Entries.mem_filter_iff, and_iff_right_iff_imp]
  intro hdue
  obtain ⟨-, expiry, hexpiry, -⟩ := isDue_iff.mp hdue
  exact Entries.mem_of_getElem? hexpiry

/-- The keys that are looked up before a cleanup drops any are those that it answers. -/
theorem due_eq (r : SignedPreKeyRing) (now : Time) :
    (r.expiries.toList.filter fun (id, expiry) =>
      id != r.current && decide (expiry ≤ now)).map Prod.fst = (r.purge now).1 := by
  rw [purge, ← Std.ExtTreeMap.map_fst_toList_eq_keys, Std.ExtTreeMap.toList_filter]
  congr 1
  apply List.filter_congr
  rintro ⟨id, expiry⟩ hmem
  have hexpiry := Std.ExtTreeMap.mem_toList_iff_getElem?_eq_some.mp hmem
  simp [isDue, hexpiry]

/-- Dropping one after the other the keys that are due leaves those that are not. -/
theorem foldl_erase_purge {β : Type} (r : SignedPreKeyRing) (now : Time)
    (table : Std.ExtTreeMap UInt32 β) :
    (r.purge now).1.foldl (fun table id => table.erase id) table =
      table.filter fun id _ => !r.isDue now id := by
  apply Std.ExtTreeMap.ext_getElem?
  intro id
  rw [Entries.getElem?_foldl_erase, Std.ExtTreeMap.getElem?_filter']
  by_cases hdue : r.isDue now id = true
  · rw [if_pos (mem_purge_fst.mpr hdue)]
    simp [hdue]
  · rw [if_neg fun hmem => hdue (mem_purge_fst.mp hmem)]
    rw [Bool.not_eq_true] at hdue
    rw [hdue]
    cases table[id]? <;> rfl

theorem purgeInPlace_eq (now : Time) : purgeInPlace now = ofDraw fun r => pure (r.purge now) := by
  funext ⟨r, e⟩
  simp only [purgeInPlace, InPlace.look_bind, due_eq]
  rw [bind_of_ok (dropInPlace_eq _ r e), foldl_erase_purge, foldl_erase_purge]
  rfl

/-! ## Any calls -/

/-- What a device does with its signed pre-keys. -/
inductive Call where
  /-- Makes the next key. -/
  | create (now : Time)
  /-- Puts a key in use. -/
  | promote (id : UInt32)
  /-- Schedules a key to be dropped. -/
  | expire (id : UInt32) (expiry : Time)
  /-- Drops the keys that are due. -/
  | purge (now : Time)

/-- A call step by step, without its answer. -/
def Call.perform : Call → InPlace SignedPreKeyRing Unit
  | create now => (fun _ => ()) <$> createInPlace now
  | promote id => (fun _ => ()) <$> promoteInPlace id
  | expire id expiry => expireInPlace id expiry
  | purge now => (fun _ => ()) <$> purgeInPlace now

/-- What a call comes to: the ring after it, or a failure. -/
def Call.outcome : Call → SignedPreKeyRing → Draw SignedPreKeyRing
  | create now, r => Prod.snd <$> r.create now
  | promote id, r => Prod.snd <$> Draw.ofExcept (r.promote id)
  | expire id expiry, r => Draw.ofExcept (r.expire id expiry)
  | purge now, r => pure (r.purge now).2

/-- The ring and the randomness after calls, each of which may succeed or fail. -/
def afterCalls (calls : List Call) (t : SignedPreKeyRing × Entropy) : SignedPreKeyRing × Entropy :=
  calls.foldl (fun t call => endState call.perform t) t

theorem Call.perform_eq (call : Call) : call.perform = update call.outcome := by
  cases call with
  | create now => rw [perform, createInPlace_eq, InPlace.forget_ofDraw]; rfl
  | promote id => rw [perform, promoteInPlace_eq, InPlace.forget_ofDraw]; rfl
  | expire id expiry => exact expireInPlace_eq id expiry
  | purge now => rw [perform, purgeInPlace_eq, InPlace.forget_ofDraw]; rfl

/-- A call that fails has changed nothing. -/
theorem Call.eq_of_error {call : Call} {err : Error} {t : SignedPreKeyRing × Entropy}
    (h : call.perform (r, e) = .error err t) : call.outcome r e = .error err t.2 ∧ t.1 = r := by
  rw [perform_eq, InPlace.update_eq_error_iff] at h
  obtain ⟨e', houtcome, rfl⟩ := h
  exact ⟨houtcome, rfl⟩

/-- A call that succeeds leaves a sound ring sound. -/
theorem Call.sound_of_ok {call : Call} (hr : r.Sound) (h : call.outcome r e = .ok r' e') :
    r'.Sound := by
  cases call with
  | create now =>
    obtain ⟨p, hcreate, rfl⟩ := map_eq_ok_iff.mp h
    exact hr.create hcreate
  | promote id =>
    obtain ⟨p, hpromote, rfl⟩ := map_eq_ok_iff.mp h
    exact hr.promote (Draw.ofExcept_eq_ok_iff.mp hpromote).1
  | expire id expiry => exact hr.expire (Draw.ofExcept_eq_ok_iff.mp h).1
  | purge now =>
    cases h
    exact hr.purge now

theorem Call.sound_perform (call : Call) {t : SignedPreKeyRing × Entropy} (h : t.1.Sound) :
    (endState call.perform t).1.Sound := by
  obtain ⟨r, e⟩ := t
  rw [perform_eq]
  exact InPlace.endState_update_induction (p := fun t => t.1.Sound)
    (fun r' e' hcall => sound_of_ok h hcall) fun err e' hcall => h

/-- A ring that is sound is sound after any calls. -/
theorem sound_afterCalls (calls : List Call) {t : SignedPreKeyRing × Entropy} (h : t.1.Sound) :
    (afterCalls calls t).1.Sound := by
  induction calls generalizing t with
  | nil => exact h
  | cons call calls ih => exact ih (call.sound_perform h)

/-! ## What a call does to a ring -/

/-- `r'` is `r` with the key `id` in use and not scheduled, and `previous` is the number of the key
that it supersedes. -/
structure Promotes (r : SignedPreKeyRing) (id : UInt32) (previous : Option UInt32)
    (r' : SignedPreKeyRing) : Prop where
  retained : id ∈ r.keys
  previous : previous = if r.current = id then none else some r.current
  current : r'.current = id
  expiries : ∀ other : UInt32,
    r'.expiries[other]? = if other = id then none else r.expiries[other]?
  keys : r'.keys = r.keys
  nextId : r'.nextId = r.nextId

/-- `r'` is `r` without the keys that are due at `now`, and `dropped` has the number of each of
these once. -/
structure Purges (r : SignedPreKeyRing) (now : Time) (dropped : List UInt32)
    (r' : SignedPreKeyRing) : Prop where
  nodup : dropped.Nodup
  mem_iff : ∀ id : UInt32,
    id ∈ dropped ↔ id ∈ r.keys ∧ ∃ expiry, r.expiries[id]? = some expiry ∧ expiry ≤ now
  current_notMem : r.current ∉ dropped
  keys : ∀ id : UInt32, r'.keys[id]? = if id ∈ dropped then none else r.keys[id]?
  expiries : ∀ id : UInt32, r'.expiries[id]? = if id ∈ dropped then none else r.expiries[id]?
  current : r'.current = r.current
  nextId : r'.nextId = r.nextId

/-- A key can be put in use exactly when it is kept, and then it is. -/
theorem promote_eq_ok_iff {previous : Option UInt32} :
    r.promote id = .ok (previous, r') ↔ r.Promotes id previous r' := by
  constructor
  · intro h
    unfold promote at h
    split at h
    · next hid =>
      cases h
      refine ⟨hid, rfl, rfl, fun other => ?_, rfl, rfl⟩
      simp only [Std.ExtTreeMap.getElem?_erase, Std.LawfulEqCmp.compare_eq_iff_eq,
        eq_comm (a := id)]
    · cases h
  · rintro ⟨hid, rfl, hcurrent, hexpiries, hkeys, hnextId⟩
    have hexpiries' : r'.expiries = r.expiries.erase id := by
      apply Std.ExtTreeMap.ext_getElem?
      intro other
      simp only [hexpiries, Std.ExtTreeMap.getElem?_erase, Std.LawfulEqCmp.compare_eq_iff_eq,
        eq_comm (a := id)]
    rw [promote, if_pos hid, ← hexpiries', ← hkeys, ← hnextId, ← hcurrent]

theorem exists_promote_iff : (∃ previous r', r.promote id = .ok (previous, r')) ↔ id ∈ r.keys := by
  constructor
  · rintro ⟨previous, r', h⟩
    exact (promote_eq_ok_iff.mp h).retained
  · intro hid
    obtain ⟨previous, r', h, -⟩ := exists_promote_of_mem hid
    exact ⟨previous, r', h⟩

/-- What a cleanup does to a table is to drop what it answers. -/
theorem getElem?_filter_purge {β : Type} (table : Std.ExtTreeMap UInt32 β) (id : UInt32) :
    (table.filter fun id _ => !r.isDue now id)[id]? =
      if id ∈ (r.purge now).1 then none else table[id]? := by
  rw [← foldl_erase_purge, Entries.getElem?_foldl_erase]

/-- A cleanup of a sound ring drops what its expiries say. -/
theorem Sound.purges (hr : r.Sound) (now : Time) :
    r.Purges now (r.purge now).1 (r.purge now).2 where
  nodup := Std.ExtTreeMap.nodup_keys
  mem_iff id := by
    rw [mem_purge_fst, hr.isDue_iff]
    constructor
    · rintro ⟨expiry, hexpiry, hle⟩
      exact ⟨hr.expiry_mem id (Entries.mem_of_getElem? hexpiry), expiry, hexpiry, hle⟩
    · rintro ⟨-, hdue⟩
      exact hdue
  current_notMem h := by
    rw [mem_purge_fst, isDue_current] at h
    cases h
  keys := getElem?_filter_purge r.keys
  expiries := getElem?_filter_purge r.expiries
  current := rfl
  nextId := rfl

/-- Whatever was done with a ring, whether it succeeded or failed, the ring has its key in use, and
only superseded keys that it keeps are scheduled. Of the calls that may come next, a key can be put
in use exactly when it is kept, a cleanup drops exactly the keys that are due, and one that fails
has changed nothing. -/
theorem orderly_after_calls {first : UInt32} {r₀ : SignedPreKeyRing}
    (h : startingAt first now e = .ok r₀ e') (calls : List Call) :
    let r := (afterCalls calls (r₀, e')).1
    (∃ key, r.current? = .ok key ∧ key.id = r.current) ∧
    (∀ id ∈ r.expiries, id ∈ r.keys ∧ id ≠ r.current) ∧
    (∀ id, (∃ previous r', r.promote id = .ok (previous, r')) ↔ id ∈ r.keys) ∧
    (∀ id previous r', r.promote id = .ok (previous, r') ↔ r.Promotes id previous r') ∧
    (∀ now, r.Purges now (r.purge now).1 (r.purge now).2) ∧
    ∀ (call : Call) (e : Entropy) (err : Error) (t : SignedPreKeyRing × Entropy),
      call.perform (r, e) = .error err t → call.outcome r e = .error err t.2 ∧ t.1 = r := by
  intro r
  have hr : r.Sound := sound_afterCalls calls (t := (r₀, e')) (startingAt_sound h)
  refine ⟨?_, fun id hid => ⟨hr.expiry_mem id hid, hr.ne_current hid⟩, fun id => exists_promote_iff,
    fun id previous r' => promote_eq_ok_iff, hr.purges, fun call e err t hcall => ?_⟩
  · obtain ⟨key, hcurrent, hkey⟩ := hr.exists_current
    exact ⟨key, hcurrent, hr.filed _ _ hkey⟩
  · exact call.eq_of_error hcall

section Example

/-- A source that refuses its fourth draw. -/
def refusingFourth : Entropy := { Entropy.counting with refuses := fun attempt => attempt == 3 }

/-- The last number and the first one are made and take turns in being in use. The key that is not
in use is scheduled each time, and the last attempt to make a key gets no randomness. -/
def turns : List Call :=
  [.create .epoch, .promote 0, .expire 0xFFFFFFFF ⟨2⟩, .promote 0xFFFFFFFF, .expire 0 ⟨5⟩,
    .expire 0xFFFFFFFF ⟨5⟩, .create .epoch, .create .epoch]

/-- The last number is in use again, and a cleanup drops the first one alone, which is due. -/
theorem orderly_after_calls_of_turns :
    ∃ r₀ e', startingAt 0xFFFFFFFF .epoch refusingFourth = .ok r₀ e' ∧
      let r := (afterCalls turns (r₀, e')).1
      r.ids = [0, 1, 0xFFFFFFFF] ∧ (∃ key, r.current? = .ok key ∧ key.id = 0xFFFFFFFF) ∧
        r.Purges ⟨5⟩ [0] (r.purge ⟨5⟩).2 ∧ ¬∃ previous r', r.promote 2 = .ok (previous, r') := by
  have hstart : startingAt 0xFFFFFFFF .epoch refusingFourth = .ok _ _ := rfl
  refine ⟨_, _, hstart, ?_⟩
  intro r
  obtain ⟨hcurrent, -, hpromote, -, hpurge, -⟩ := orderly_after_calls hstart turns
  have hnumbers : r.current = 0xFFFFFFFF ∧ r.ids = [0, 1, 0xFFFFFFFF] ∧ 2 ∉ r.keys ∧
      (r.purge ⟨5⟩).1 = [0] := by
    decide +kernel
  obtain ⟨huse, hids, hunknown, hdropped⟩ := hnumbers
  refine ⟨hids, ?_, hdropped ▸ hpurge ⟨5⟩, fun h => hunknown ((hpromote 2).mp h)⟩
  obtain ⟨key, hkey, hid⟩ := hcurrent
  exact ⟨key, hkey, hid.trans huse⟩

end Example

end SignedPreKeyRing

end MultiDevice
