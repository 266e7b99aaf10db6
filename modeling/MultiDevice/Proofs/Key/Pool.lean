import MultiDevice.Proofs.CipherSuite
import MultiDevice.Proofs.InPlace
import MultiDevice.Proofs.Key.Numbering

/-!
# A pool of one-time pre-keys when draws fail

A pool makes keys one after the other, and any of the draws may be refused. The keys made before are
then in the pool and the counter is just past them, so the next attempt goes on with the next
number. A pool that is filled up and emptied again and again, with failures on the way, therefore
gives every number out once, and a key that was removed does not come back.

## Main definitions

* `OneTimePreKeyPool.keysFrom`: the keys made up to the first draw that is refused
* `OneTimePreKeyPool.Call`, `OneTimePreKeyPool.afterCalls`: calls, and the pool after them
* `OneTimePreKeyPool.generated`: the keys that were made in several calls
* `OneTimePreKeyPool.Adds`: a pool after more keys were made
* `OneTimePreKeyPool.Grows`: a pool after keys were made and others removed
* `OneTimePreKeyPool.Completes`, `OneTimePreKeyPool.Stops`: the two ways in which making keys ends

## Main results

* `OneTimePreKeyPool.generate_eq`: what making keys does, whichever draws are refused
* `OneTimePreKeyPool.Call.grows`, `OneTimePreKeyPool.grows_afterCalls`: what calls do to a pool
* `OneTimePreKeyPool.single_use_after_calls`: numbers are given out once, and what each call does
-/

namespace MultiDevice

namespace OneTimePreKeyPool

/-- The keys that are made when `count` are asked for, numbered from `id` on: one for each draw up
to the first that is refused. -/
def keysFrom : Nat → UInt32 → Entropy → List OneTimePreKey
  | 0, _, _ => []
  | count + 1, id, e =>
    if e.refuses e.attempts then []
    else ⟨id, e.supply e.drawn 32⟩ :: keysFrom count (id + 1) e.next

/-- What changes a pool. -/
inductive Call where
  /-- Makes keys. -/
  | generate (count : Nat)
  /-- Fills the pool up. -/
  | replenish (target : Nat)
  /-- Removes a key. -/
  | remove (id : UInt32)

/-- A call, without its answer. -/
def Call.perform : Call → Refill Unit
  | generate count => (fun _ => ()) <$> OneTimePreKeyPool.generate count
  | replenish target => (fun _ => ()) <$> OneTimePreKeyPool.replenish target
  | remove id => InPlace.amend fun p => (p.remove id).2

/-- How many keys a call asks for. -/
def Call.asked : Call → OneTimePreKeyPool → Nat
  | generate count, _ => count
  | replenish target, p => target - p.count
  | remove _, _ => 0

/-- The keys that a call makes, whether it succeeds or fails. -/
def Call.made (call : Call) (t : OneTimePreKeyPool × Entropy) : List OneTimePreKey :=
  keysFrom (call.asked t.1) t.1.nextId t.2

/-- The pool, and the randomness, after calls that succeed or fail. -/
def afterCalls (calls : List Call) (t : OneTimePreKeyPool × Entropy) :
    OneTimePreKeyPool × Entropy :=
  calls.foldl (fun t call => endState call.perform t) t

/-- The keys that were made in several calls, in order. -/
def generated : List Call → OneTimePreKeyPool × Entropy → List OneTimePreKey
  | [], _ => []
  | call :: calls, t => call.made t ++ generated calls (endState call.perform t)

/-- The keys `made` have the numbers from `next` up to `next'`, one after the other. -/
structure Counts (next : UInt32) (made : List OneTimePreKey) (next' : UInt32) : Prop where
  ids : made.map (fun key => key.id.toNat) = List.range' next.toNat made.length
  next_eq : next'.toNat = next.toNat + made.length

/-- The pool after the keys `made` were added, with the next numbers, none of which was in use. -/
structure Adds (p : OneTimePreKeyPool) (made : List OneTimePreKey) (p' : OneTimePreKeyPool) :
    Prop where
  counts : Counts p.nextId made p'.nextId
  new : ∀ key ∈ made, key.id ∉ p.keys ∧ p'.keys[key.id]? = some key
  kept : ∀ id, (∀ key ∈ made, key.id ≠ id) → p'.keys[id]? = p.keys[id]?
  count : p'.count = p.count + made.length

/-- The pool after the keys `made` were added, with the next numbers, and any keys removed. -/
structure Grows (p : OneTimePreKeyPool) (made : List OneTimePreKey) (p' : OneTimePreKeyPool) :
    Prop where
  counts : Counts p.nextId made p'.nextId
  of_getElem? : ∀ (id : UInt32) (key : OneTimePreKey), p'.keys[id]? = some key →
    p.keys[id]? = some key ∨ (key ∈ made ∧ key.id = id)

/-- All `asked` keys were made. -/
structure Completes (asked : Nat) (t t' : OneTimePreKeyPool × Entropy) : Prop where
  length_eq : (keysFrom asked t.1.nextId t.2).length = asked
  adds : Adds t.1 (keysFrom asked t.1.nextId t.2) t'.1

/-- Fewer than `asked` keys were made, because the next draw was refused. Those made stay. -/
structure Stops (asked : Nat) (t t' : OneTimePreKeyPool × Entropy) : Prop where
  length_lt : (keysFrom asked t.1.nextId t.2).length < asked
  refused : t.2.refuses (t.2.attempts + (keysFrom asked t.1.nextId t.2).length) = true
  adds : Adds t.1 (keysFrom asked t.1.nextId t.2) t'.1

/-- All `asked` keys were made and the answer is `answer`, or randomness was missing for one. -/
def Ends {α : Type} (asked : Nat) (answer : α) (x : Refill α) (t : OneTimePreKeyPool × Entropy) :
    Prop :=
  match x t with
  | .ok a t' => a = answer ∧ Completes asked t t'
  | .error err t' => err = .noRandomness ∧ Stops asked t t'

variable {p p' p'' : OneTimePreKeyPool} {made more : List OneTimePreKey} {e : Entropy}
  {t t' : OneTimePreKeyPool × Entropy} {first : UInt32}

/-! ## Making keys -/

theorem length_keysFrom_le (count : Nat) (id : UInt32) (e : Entropy) :
    (keysFrom count id e).length ≤ count := by
  induction count generalizing id e with
  | zero => exact Nat.le_refl 0
  | succ count ih =>
    rw [keysFrom]
    split
    · exact Nat.zero_le _
    · exact Nat.succ_le_succ (ih _ _)

/-- If fewer keys were made than asked for, the draw after the last of them was refused. -/
theorem refuses_of_length_lt {count : Nat} {id : UInt32}
    (h : (keysFrom count id e).length < count) :
    e.refuses (e.attempts + (keysFrom count id e).length) = true := by
  induction count generalizing id e with
  | zero => exact absurd h (Nat.not_lt_zero _)
  | succ count ih =>
    rw [keysFrom] at h ⊢
    split at h
    next hrefuses =>
      rw [if_pos hrefuses]
      exact hrefuses
    next hrefuses =>
      rw [if_neg hrefuses, List.length_cons]
      have hnext := ih (Nat.lt_of_succ_lt_succ h)
      rwa [show e.next.attempts = e.attempts + 1 from rfl, Nat.add_assoc, Nat.add_comm 1] at hnext

/-- The keys made are added one after the other, up to the first draw that is refused. -/
theorem generate_eq (count : Nat) (p : OneTimePreKeyPool) (e : Entropy) :
    let made := keysFrom count p.nextId e
    ∃ e', generate count (p, e) =
      if made.length = count then .ok made (made.foldl add p, e')
      else .error .noRandomness (made.foldl add p, e') := by
  -- Induction on the number of keys to be made, from any pool and source.
  induction count generalizing p e with
  | zero => exact ⟨e, rfl⟩
  | succ count ih =>
    intro made
    have hone := generateOne_eq p e
    split at hone
    next hrefuses =>
      have hmade : made = [] := if_pos hrefuses
      rw [generate, bind_of_error hone, hmade]
      exact ⟨_, rfl⟩
    next hrefuses =>
      let key : OneTimePreKey := ⟨p.nextId, e.supply e.drawn 32⟩
      have hmade : made = key :: keysFrom count (p.add key).nextId e.next := if_neg hrefuses
      obtain ⟨e', hrest⟩ := ih (p.add key) e.next
      generalize keysFrom count (p.add key).nextId e.next = rest at hmade hrest
      refine ⟨e', ?_⟩
      rw [generate, bind_of_ok hone, hmade, List.length_cons]
      by_cases hall : rest.length = count
      · rw [if_pos hall] at hrest
        rw [bind_of_ok hrest, if_pos (by omega)]
        rfl
      · rw [if_neg hall] at hrest
        rw [bind_of_error hrest, if_neg (by omega)]
        rfl

/-! ## What becomes of a pool -/

namespace Counts

variable {next next' next'' : UInt32}

theorem nil (next : UInt32) : Counts next [] next := ⟨rfl, rfl⟩

theorem append (h : Counts next made next') (h' : Counts next' more next'') :
    Counts next (made ++ more) next'' where
  ids := by
    rw [List.map_append, h.ids, h'.ids, h.next_eq, List.length_append, List.range'_append_1]
  next_eq := by
    rw [h'.next_eq, h.next_eq, List.length_append, Nat.add_assoc]

theorem le (h : Counts next made next') : next ≤ next' := by
  rw [UInt32.le_iff_toNat_le, h.next_eq]
  exact Nat.le_add_right _ _

theorem id_bounds (h : Counts next made next') {key : OneTimePreKey} (hkey : key ∈ made) :
    next ≤ key.id ∧ key.id < next' := by
  have hrange := List.mem_map_of_mem (f := fun key : OneTimePreKey => key.id.toNat) hkey
  rw [h.ids, List.mem_range'_1, ← h.next_eq] at hrange
  exact hrange

end Counts

namespace Adds

theorem nil (p : OneTimePreKeyPool) : Adds p [] p :=
  ⟨.nil _, fun _ h => absurd h List.not_mem_nil, fun _ _ => rfl, rfl⟩

/-- While there are numbers left, a key with the next number is added under a number of its own. -/
theorem one {key : OneTimePreKey} (hid : key.id = p.nextId) (hfree : p.nextId ∉ p.keys)
    (hroom : p.nextId.toNat + 1 < UInt32.size) : Adds p [key] (p.add key) where
  counts := by
    refine ⟨?_, Numbers.toNat_add_one hroom⟩
    rw [List.map_singleton, hid]
    rfl
  new other hother := by
    rw [List.mem_singleton.mp hother]
    exact ⟨hid ▸ hfree, Std.ExtTreeMap.getElem?_insert_self⟩
  kept id hne := Entries.insert_of_ne (hne key (List.mem_singleton_self key)).symm
  count := count_add_of_notMem (hid ▸ hfree)

theorem mem_of_mem (h : Adds p made p') {id : UInt32} (hid : id ∈ p.keys) : id ∈ p'.keys := by
  obtain ⟨key, hkey⟩ := Entries.exists_of_mem hid
  refine Entries.mem_of_getElem? ((h.kept id fun other hother heq => ?_).trans hkey)
  exact (h.new other hother).1 (heq ▸ hid)

theorem append (h : Adds p made p') (h' : Adds p' more p'') : Adds p (made ++ more) p'' where
  counts := h.counts.append h'.counts
  new key hkey := by
    rcases List.mem_append.mp hkey with hkey | hkey
    · obtain ⟨hfree, hfiled⟩ := h.new key hkey
      refine ⟨hfree, (h'.kept key.id fun other hother heq => ?_).trans hfiled⟩
      exact (h'.new other hother).1 (heq ▸ Entries.mem_of_getElem? hfiled)
    · obtain ⟨hfree, hfiled⟩ := h'.new key hkey
      exact ⟨fun hmem => hfree (h.mem_of_mem hmem), hfiled⟩
  kept id hne := by
    rw [h'.kept id fun key hkey => hne key (List.mem_append_right _ hkey),
      h.kept id fun key hkey => hne key (List.mem_append_left _ hkey)]
  count := by
    rw [h'.count, h.count, List.length_append, Nat.add_assoc]

theorem grows (h : Adds p made p') : Grows p made p' where
  counts := h.counts
  of_getElem? id key hkey := by
    by_cases hmade : ∃ other ∈ made, other.id = id
    · obtain ⟨other, hother, rfl⟩ := hmade
      cases (h.new other hother).2.symm.trans hkey
      exact .inr ⟨hother, rfl⟩
    · exact .inl ((h.kept id fun other hother heq => hmade ⟨other, hother, heq⟩).symm.trans hkey)

end Adds

namespace Grows

theorem refl (p : OneTimePreKeyPool) : Grows p [] p := (Adds.nil p).grows

theorem remove (p : OneTimePreKeyPool) (id : UInt32) : Grows p [] (p.remove id).2 :=
  ⟨.nil _, fun _ _ hkey => .inl (Entries.of_erase hkey)⟩

theorem append (h : Grows p made p') (h' : Grows p' more p'') : Grows p (made ++ more) p'' where
  counts := h.counts.append h'.counts
  of_getElem? id key hkey := by
    rcases h'.of_getElem? id key hkey with hkey | ⟨hmade, hid⟩
    · exact (h.of_getElem? id key hkey).imp_right fun h => ⟨List.mem_append_left _ h.1, h.2⟩
    · exact .inr ⟨List.mem_append_right _ hmade, hid⟩

/-- A number in use was in use before, or it is one of those between the old and the new counter. -/
theorem of_mem (h : Grows p made p') {id : UInt32} (hid : id ∈ p'.keys) :
    id ∈ p.keys ∨ (p.nextId ≤ id ∧ id < p'.nextId) := by
  obtain ⟨key, hkey⟩ := Entries.exists_of_mem hid
  rcases h.of_getElem? id key hkey with hkey | ⟨hmade, rfl⟩
  · exact .inl (Entries.mem_of_getElem? hkey)
  · exact .inr (h.counts.id_bounds hmade)

end Grows

/-- The numbers in use are below the counter. -/
def Fresh (p : OneTimePreKeyPool) : Prop := ∀ id ∈ p.keys, id < p.nextId

theorem Fresh.grows (hp : p.Fresh) (h : Grows p made p') : p'.Fresh := by
  intro id hid
  rcases h.of_mem hid with hid | ⟨-, hlt⟩
  · have hlt := hp id hid
    have hle := h.counts.le
    rw [UInt32.lt_iff_toNat_lt] at hlt ⊢
    rw [UInt32.le_iff_toNat_le] at hle
    omega
  · exact hlt

theorem Fresh.notMem (hp : p.Fresh) : p.nextId ∉ p.keys := fun hmem =>
  UInt32.lt_irrefl _ (hp _ hmem)

/-- While there are numbers left, the keys that are made are added under numbers of their own. -/
theorem adds_keysFrom {count : Nat} (hp : p.Fresh)
    (hroom : p.nextId.toNat + (keysFrom count p.nextId e).length < UInt32.size) :
    Adds p (keysFrom count p.nextId e) ((keysFrom count p.nextId e).foldl add p) := by
  induction count generalizing p e with
  | zero => exact .nil p
  | succ count ih =>
    rw [keysFrom] at hroom ⊢
    split at hroom
    next hrefuses =>
      rw [if_pos hrefuses]
      exact .nil p
    next hrefuses =>
      rw [if_neg hrefuses, List.foldl_cons]
      rw [List.length_cons] at hroom
      let key : OneTimePreKey := ⟨p.nextId, e.supply e.drawn 32⟩
      have hone : Adds p [key] (p.add key) := .one rfl hp.notMem (by omega)
      have hnext := hone.counts.next_eq
      rw [List.length_singleton] at hnext
      refine hone.append (ih (hp.grows hone.grows) ?_)
      change _ + (keysFrom count (p.nextId + 1) e.next).length < UInt32.size
      omega

/-! ## What each call does -/

theorem endState_generate (count : Nat) (p : OneTimePreKeyPool) (e : Entropy) :
    (endState (generate count) (p, e)).1 = (keysFrom count p.nextId e).foldl add p := by
  obtain ⟨e', h⟩ := generate_eq count p e
  split at h
  · rw [endState_of_ok h]
  · rw [endState_of_error h]

theorem generate_ends {count : Nat} (hp : t.1.Fresh)
    (hroom : t.1.nextId.toNat + (keysFrom count t.1.nextId t.2).length < UInt32.size) :
    Ends count (keysFrom count t.1.nextId t.2) (generate count) t := by
  obtain ⟨p, e⟩ := t
  have hadds := adds_keysFrom hp hroom
  obtain ⟨e', h⟩ := generate_eq count p e
  unfold Ends
  split at h
  next hall =>
    rw [h]
    exact ⟨rfl, hall, hadds⟩
  next hfew =>
    have hlt := Nat.lt_of_le_of_ne (length_keysFrom_le count p.nextId e) hfew
    rw [h]
    exact ⟨rfl, hlt, refuses_of_length_lt hlt, hadds⟩

theorem replenish_ends {target : Nat} (hp : t.1.Fresh)
    (hroom : t.1.nextId.toNat + (keysFrom (target - t.1.count) t.1.nextId t.2).length <
      UInt32.size) :
    Ends (target - t.1.count) (target - t.1.count) (replenish target) t := by
  have hends := generate_ends hp hroom
  unfold Ends at hends ⊢
  rw [replenish, bind_get]
  split at hends
  next keys t' h =>
    rw [bind_of_ok h]
    exact ⟨rfl, hends.2⟩
  next err t' h =>
    rw [bind_of_error h]
    exact hends

/-- A pool that was filled up without a failure has as many keys as were asked for, if it had not
more. -/
theorem count_of_replenish {target added : Nat} (hp : t.1.Fresh)
    (hroom : t.1.nextId.toNat + (keysFrom (target - t.1.count) t.1.nextId t.2).length <
      UInt32.size) (h : replenish target t = .ok added t') :
    t'.1.count = max t.1.count target ∧ added = t'.1.count - t.1.count := by
  have hends := replenish_ends hp hroom
  unfold Ends at hends
  rw [h] at hends
  obtain ⟨rfl, hcompletes⟩ := hends
  rw [hcompletes.adds.count, hcompletes.length_eq]
  omega

theorem Call.grows (call : Call) (hp : t.1.Fresh)
    (hroom : t.1.nextId.toNat + (call.made t).length < UInt32.size) :
    Grows t.1 (call.made t) (endState call.perform t).1 := by
  obtain ⟨p, e⟩ := t
  cases call with
  | generate count =>
    rw [perform, endState_map, endState_generate]
    exact (adds_keysFrom hp hroom).grows
  | replenish target =>
    rw [perform, endState_map, endState_replenish, endState_generate]
    exact (adds_keysFrom hp hroom).grows
  | remove id => exact .remove p id

/-! ## Several calls -/

theorem afterCalls_append (before calls : List Call) (t : OneTimePreKeyPool × Entropy) :
    afterCalls (before ++ calls) t = afterCalls calls (afterCalls before t) :=
  List.foldl_append

theorem generated_append (before calls : List Call) (t : OneTimePreKeyPool × Entropy) :
    generated (before ++ calls) t =
      generated before t ++ generated calls (afterCalls before t) := by
  induction before generalizing t with
  | nil => rfl
  | cons call before ih =>
    rw [List.cons_append, generated, ih, generated, List.append_assoc]
    rfl

theorem grows_afterCalls (calls : List Call) (hp : t.1.Fresh)
    (hroom : t.1.nextId.toNat + (generated calls t).length < UInt32.size) :
    Grows t.1 (generated calls t) (afterCalls calls t).1 := by
  induction calls generalizing t with
  | nil => exact .refl _
  | cons call calls ih =>
    rw [generated, List.length_append] at hroom
    have hcall := call.grows hp (by omega)
    refine hcall.append (ih (hp.grows hcall) ?_)
    rw [hcall.counts.next_eq]
    omega

/-- If there are numbers for the keys made in all calls, then there are, where some of them were
made, for those of the next call and of the others. -/
theorem fresh_of_append {before rest : List Call} {call : Call} (hp : t.1.Fresh)
    (hroom : t.1.nextId.toNat + (generated (before ++ call :: rest) t).length < UInt32.size) :
    let u := afterCalls before t
    u.1.Fresh ∧ u.1.nextId.toNat + (call.made u).length < UInt32.size ∧
      u.1.nextId.toNat + (generated (call :: rest) u).length < UInt32.size := by
  rw [generated_append, List.length_append] at hroom
  have hbefore := grows_afterCalls before hp (by omega)
  have hnext := hbefore.counts.next_eq
  refine ⟨hp.grows hbefore, ?_, by omega⟩
  rw [generated, List.length_append] at hroom
  omega

/-- A key that was removed does not come back. -/
theorem notMem_of_removed {calls : List Call} {id : UInt32} (hp : t.1.Fresh)
    (hroom : t.1.nextId.toNat + (generated (.remove id :: calls) t).length < UInt32.size)
    (hid : id ∈ t.1.keys) : id ∉ (afterCalls (.remove id :: calls) t).1.keys := by
  obtain ⟨p, e⟩ := t
  have hlater := grows_afterCalls (t := ((p.remove id).2, e)) calls (hp.grows (.remove p id)) hroom
  intro hmem
  rcases hlater.of_mem hmem with hmem | ⟨hle, -⟩
  · exact notMem_remove p id hmem
  · have hlt := hp id hid
    exact UInt32.lt_irrefl _ (UInt32.lt_of_lt_of_le hlt hle)

theorem fresh_startingAt (first : UInt32) : (startingAt first).Fresh := fun _ h =>
  absurd h Std.ExtTreeMap.not_mem_empty

/-- Whatever is done with a pool, and whichever draws are refused, as long as there are numbers left
the keys are numbered one after the other, those of failing attempts included, and a key that was
removed does not come back. Making keys and filling up make all keys that are asked for, or those
before the first draw that is refused. -/
theorem single_use_after_calls (first : UInt32) (e : Entropy) (calls : List Call)
    (hroom : first.toNat + (generated calls (startingAt first, e)).length < UInt32.size) :
    let after := fun calls => afterCalls calls (startingAt first, e)
    Counts first (generated calls (startingAt first, e)) (after calls).1.nextId ∧
      (∀ id ∈ (after calls).1.keys, first ≤ id ∧ id < (after calls).1.nextId) ∧
      (∀ before id rest, calls = before ++ .remove id :: rest →
        id ∈ (after before).1.keys → id ∉ (after calls).1.keys) ∧
      (∀ before count rest, calls = before ++ .generate count :: rest →
        let made := keysFrom count (after before).1.nextId (after before).2
        Ends count made (generate count) (after before)) ∧
      ∀ before target rest, calls = before ++ .replenish target :: rest →
        let missing := target - (after before).1.count
        Ends missing missing (replenish target) (after before) ∧
          ∀ added t', replenish target (after before) = .ok added t' →
            t'.1.count = max (after before).1.count target ∧
              added = t'.1.count - (after before).1.count := by
  intro after
  have hstart : (startingAt first, e).1.Fresh := fresh_startingAt first
  have hgrows := grows_afterCalls calls hstart hroom
  refine ⟨hgrows.counts, fun id hid => ?_, ?_, ?_, ?_⟩
  · rcases hgrows.of_mem hid with hid | hbounds
    · exact absurd hid Std.ExtTreeMap.not_mem_empty
    · exact hbounds
  · rintro before id rest rfl hid
    obtain ⟨hfresh, -, hleft⟩ := fresh_of_append hstart hroom
    have hgone := notMem_of_removed hfresh hleft hid
    rwa [← afterCalls_append] at hgone
  · rintro before count rest rfl
    obtain ⟨hfresh, hcall, -⟩ := fresh_of_append hstart hroom
    exact generate_ends hfresh hcall
  · rintro before target rest rfl
    obtain ⟨hfresh, hcall, -⟩ := fresh_of_append hstart hroom
    exact ⟨replenish_ends hfresh hcall, fun added t' h => count_of_replenish hfresh hcall h⟩

section Example

/-- A source that refuses its third draw. -/
def refusingThird : Entropy := { Entropy.counting with refuses := fun attempt => attempt == 2 }

/-- A pool is filled up, which fails on the way, a key is removed, and the pool is filled up
again. -/
def secondAttempt : List Call := [.replenish 4, .remove 0xFFFFFFF1, .replenish 4]

/-- The second attempt goes on with the number at which the first one failed. -/
theorem single_use_after_second_attempt :
    let start := (startingAt 0xFFFFFFF0, refusingThird)
    answer? (replenish 4) start = none ∧
      (generated secondAttempt start).map (fun key => key.id.toNat) = List.range' 0xFFFFFFF0 5 ∧
      (afterCalls secondAttempt start).1.nextId = 0xFFFFFFF5 ∧
      0xFFFFFFF1 ∉ (afterCalls secondAttempt start).1.keys := by
  intro start
  obtain ⟨hfailed, hmade, hheld⟩ : answer? (replenish 4) start = none ∧
      (generated secondAttempt start).length = 5 ∧
      0xFFFFFFF1 ∈ (afterCalls [.replenish 4] start).1.keys := by decide +kernel
  obtain ⟨hcounts, -, hremoved, -⟩ := single_use_after_calls 0xFFFFFFF0 refusingThird secondAttempt
    (by rw [hmade]; decide)
  have hids := hcounts.ids
  have hnext := hcounts.next_eq
  rw [hmade] at hids hnext
  exact ⟨hfailed, hids, UInt32.toNat_inj.mp hnext, hremoved [.replenish 4] _ _ rfl hheld⟩

end Example

end OneTimePreKeyPool

end MultiDevice
