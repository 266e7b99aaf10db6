import MultiDevice.Proofs.Ratchet.Chain
import Mathlib.Data.List.Pairwise

/-!
# What one party sends and how far the other has followed

A party sends in epochs, one for each ratchet key that it takes up. The peer has passed some of the
epochs, is at some position of a current one, and may have one more ahead of it.

## Main definitions

* `Epoch`, `Flow`: the messages on one ratchet key, and all that one party sends
* `Flow.Carries`: the messages that were sent
* `Flow.Files`: the keys of the messages that the peer has moved past
* `Flow.Fits`: the flows that can arise

## Main results

* `Flow.Fits.eq_of_id_eq`: the name of a message determines its place
* `Flow.Fits.moveTo`, `.takeUp`, `.opened`, `.push`: what the parties do leads to such flows again
-/

namespace MultiDevice

/-- What one party sends on one ratchet key. -/
structure Epoch where
  /-- The ratchet key. -/
  key : PublicKey
  /-- The key that the chain was started with. -/
  chainKey : Block 32
  /-- How many messages were sent on the ratchet key before. -/
  previousLength : UInt32
  /-- The plaintexts of the messages, in order. -/
  plaintexts : List Bytes

/-- The name under which the key of a message is put aside. -/
def RatchetMessage.id (m : RatchetMessage) : SkippedId :=
  ⟨m.header.ratchetKey.bytes, m.header.number⟩

namespace Epoch

/-- How many messages there are. -/
def size (e : Epoch) : Nat := e.plaintexts.length

/-- The name of the `n`-th message. -/
def id (e : Epoch) (n : Nat) : SkippedId := ⟨e.key.bytes, UInt32.ofNat n⟩

/-- The header of the `n`-th message. -/
def header (e : Epoch) (n : Nat) : MessageHeader :=
  { ratchetKey := e.key, previousLength := e.previousLength, number := UInt32.ofNat n }

/-- The epoch with one more message. -/
def add (e : Epoch) (plaintext : Bytes) : Epoch :=
  { e with plaintexts := e.plaintexts ++ [plaintext] }

@[simp] theorem size_add (e : Epoch) (plaintext : Bytes) : (e.add plaintext).size = e.size + 1 := by
  simp [size, add]

@[simp] theorem key_add (e : Epoch) (plaintext : Bytes) : (e.add plaintext).key = e.key := rfl

theorem toNat_number_id (e : Epoch) {n : Nat} (hn : n ≤ Chain.lastIndex.toNat) :
    (e.id n).number.toNat = n := by
  have hlast : Chain.lastIndex.toNat = 4294967295 := rfl
  rw [id, UInt32.toNat_ofNat']
  omega

theorem lt_size {e : Epoch} {n : Nat} {plaintext : Bytes} (h : e.plaintexts[n]? = some plaintext) :
    n < e.size := (List.getElem?_eq_some_iff.mp h).1

variable [CipherSuite]

/-- The `n`-th message, when its plaintext is given. -/
def message (e : Epoch) (associatedData : Block 64) (n : Nat) (plaintext : Bytes) :
    RatchetMessage :=
  { header := e.header n
    ciphertext := Ratchet.encipher (Chain.messageKeyAt e.chainKey n)
      (Ratchet.vouched associatedData (e.header n)) plaintext }

end Epoch

/-- What one party sends, seen from how far the other has followed. -/
structure Flow where
  /-- The epochs that the reader has left. -/
  passed : List Epoch
  /-- The epoch that the reader is in, and the number of the next message there. -/
  current : Option (Epoch × Nat)
  /-- The epoch that the reader has not taken up. -/
  ahead : Option Epoch

namespace Flow

/-- Nothing was sent yet. -/
def start : Flow := { passed := [], current := none, ahead := none }

variable {f : Flow} {e e' : Epoch} {i n n' : Nat}

/-- The epoch that the reader is in. -/
def followed (f : Flow) : Option Epoch := f.current.map Prod.fst

/-- The epoch that the writer is in. -/
def latest (f : Flow) : Option Epoch := f.ahead <|> f.followed

/-- All epochs, the oldest first. -/
def epochs (f : Flow) : List Epoch := f.passed ++ f.followed.toList ++ f.ahead.toList

/-- All ratchet keys, the oldest first. -/
def keys (f : Flow) : List PublicKey := f.epochs.map Epoch.key

/-- The reader has moved past the `n`-th message of an epoch. -/
def Passes (f : Flow) (e : Epoch) (n : Nat) : Prop :=
  n < e.size ∧ (e ∈ f.passed ∨ ∃ i, f.current = some (e, i) ∧ n < i)

/-- The flow when the reader is at another position of its epoch. -/
def moveTo (f : Flow) (i : Nat) : Flow := { f with current := f.followed.map fun e => (e, i) }

/-- The flow when the reader has taken up the epoch ahead. -/
def takeUp (f : Flow) : Flow :=
  { passed := f.passed ++ f.followed.toList
    current := f.ahead.map fun e => (e, 0)
    ahead := none }

/-- The flow when the writer has taken up a new ratchet key. -/
def opened (f : Flow) (e : Epoch) : Flow := { f with ahead := some e }

/-- The flow with one more message in its latest epoch. -/
def push (f : Flow) (plaintext : Bytes) : Flow :=
  match f.ahead with
  | some e => { f with ahead := some (e.add plaintext) }
  | none => { f with current := f.current.map fun c => (c.1.add plaintext, c.2) }

/-- A flow that can arise: its ratchet keys are different points, its epochs are short enough for
their messages to be numbered, and the reader is within its epoch. -/
structure Fits (f : Flow) : Prop where
  distinct : f.keys.Pairwise fun k k' => ¬ k.SamePoint k'
  short : ∀ e ∈ f.epochs, e.size ≤ Chain.lastIndex.toNat
  position : ∀ e i, f.current = some (e, i) → i ≤ e.size

theorem followed_eq_some_iff : f.followed = some e ↔ ∃ i, f.current = some (e, i) := by
  unfold followed
  cases f.current with
  | none => simp
  | some c =>
    obtain ⟨e', j⟩ := c
    simp

theorem followed_of_current (h : f.current = some (e, i)) : f.followed = some e :=
  followed_eq_some_iff.mpr ⟨i, h⟩

@[simp] theorem followed_moveTo (f : Flow) (i : Nat) : (f.moveTo i).followed = f.followed := by
  cases h : f.current <;> simp [followed, moveTo, h]

@[simp] theorem latest_moveTo (f : Flow) (i : Nat) : (f.moveTo i).latest = f.latest := by
  rw [latest, latest, followed_moveTo]
  rfl

@[simp] theorem epochs_moveTo (f : Flow) (i : Nat) : (f.moveTo i).epochs = f.epochs := by
  rw [epochs, epochs, followed_moveTo]
  rfl

@[simp] theorem keys_moveTo (f : Flow) (i : Nat) : (f.moveTo i).keys = f.keys := by
  rw [keys, epochs_moveTo, keys]

theorem current_moveTo (h : f.current = some (e, i)) (j : Nat) :
    (f.moveTo j).current = some (e, j) := by
  simp [moveTo, followed, h]

@[simp] theorem moveTo_moveTo (f : Flow) (i j : Nat) : (f.moveTo i).moveTo j = f.moveTo j := by
  rw [moveTo, followed_moveTo]
  rfl

@[simp] theorem takeUp_moveTo (f : Flow) (i : Nat) : (f.moveTo i).takeUp = f.takeUp := by
  rw [takeUp, followed_moveTo]
  rfl

/-- The reader stays where it is. -/
theorem exists_moveTo_eq (f : Flow) : ∃ i, f.moveTo i = f := by
  obtain ⟨passed, current, ahead⟩ := f
  cases current with
  | none => exact ⟨0, rfl⟩
  | some c => exact ⟨c.2, rfl⟩

@[simp] theorem followed_takeUp (f : Flow) : f.takeUp.followed = f.ahead := by
  cases h : f.ahead <;> simp [followed, takeUp, h]

@[simp] theorem epochs_takeUp (f : Flow) : f.takeUp.epochs = f.epochs := by
  rw [epochs, epochs, followed_takeUp]
  exact List.append_nil _

@[simp] theorem keys_takeUp (f : Flow) : f.takeUp.keys = f.keys := by
  rw [keys, epochs_takeUp, keys]

@[simp] theorem latest_opened (f : Flow) (e : Epoch) : (f.opened e).latest = some e := rfl

theorem latest_takeUp (ha : f.ahead = some e) : f.takeUp.latest = some e := by
  rw [latest, followed_takeUp, ha]
  rfl

theorem epochs_opened (ha : f.ahead = none) (e : Epoch) :
    (f.opened e).epochs = f.epochs ++ [e] := by
  rw [epochs, epochs, ha]
  change f.passed ++ f.followed.toList ++ [e] = _
  rw [Option.toList_none, List.append_nil]

theorem push_of_ahead (ha : f.ahead = some e) (plaintext : Bytes) :
    f.push plaintext = { f with ahead := some (e.add plaintext) } := by
  rw [push, ha]

theorem push_of_current (ha : f.ahead = none) (hc : f.current = some (e, i)) (plaintext : Bytes) :
    f.push plaintext = { f with current := some (e.add plaintext, i) } := by
  simp only [push, ha, hc, Option.map_some]

theorem push_of_unopened (ha : f.ahead = none) (hc : f.current = none) (plaintext : Bytes) :
    f.push plaintext = f := by
  obtain ⟨passed, current, ahead⟩ := f
  subst ha hc
  rfl

theorem latest_push (hl : f.latest = some e) (plaintext : Bytes) :
    (f.push plaintext).latest = some (e.add plaintext) := by
  cases ha : f.ahead with
  | some a =>
    rw [latest, ha] at hl
    cases hl
    rw [push_of_ahead ha]
    rfl
  | none =>
    rw [latest, ha] at hl
    obtain ⟨i, hc⟩ := followed_eq_some_iff.mp hl
    rw [push_of_current ha hc, latest, ha]
    rfl

theorem mem_epochs_iff :
    e ∈ f.epochs ↔ e ∈ f.passed ∨ (∃ i, f.current = some (e, i)) ∨ f.ahead = some e := by
  simp only [epochs, List.mem_append, Option.mem_toList, followed_eq_some_iff,
    or_assoc]

theorem mem_epochs_of_passed (h : e ∈ f.passed) : e ∈ f.epochs := mem_epochs_iff.mpr (.inl h)

theorem mem_epochs_of_current (h : f.current = some (e, i)) : e ∈ f.epochs :=
  mem_epochs_iff.mpr (.inr (.inl ⟨i, h⟩))

theorem mem_epochs_of_ahead (h : f.ahead = some e) : e ∈ f.epochs :=
  mem_epochs_iff.mpr (.inr (.inr h))

@[simp] theorem keys_push (f : Flow) (plaintext : Bytes) : (f.push plaintext).keys = f.keys := by
  cases ha : f.ahead with
  | some e => simp [keys, epochs, push_of_ahead ha, followed, ha]
  | none => cases hc : f.current <;> simp [keys, epochs, push, followed, ha, hc]

/-- A push lengthens the epoch that the writer is in and no other. -/
theorem mem_epochs_push {plaintext : Bytes} (h : e ∈ (f.push plaintext).epochs) :
    e ∈ f.epochs ∨ ∃ e', f.latest = some e' ∧ e = e'.add plaintext := by
  cases ha : f.ahead with
  | some a =>
    rw [push_of_ahead ha, mem_epochs_iff] at h
    rcases h with h | h | h
    · exact .inl (mem_epochs_of_passed h)
    · exact .inl (mem_epochs_iff.mpr (.inr (.inl h)))
    · exact .inr ⟨a, by rw [latest, ha]; rfl, (Option.some.inj h).symm⟩
  | none =>
    cases hc : f.current with
    | none =>
      rw [push_of_unopened ha hc] at h
      exact .inl h
    | some c =>
      obtain ⟨a, i⟩ := c
      rw [push_of_current ha hc, mem_epochs_iff] at h
      rcases h with h | ⟨j, h⟩ | h
      · exact .inl (mem_epochs_of_passed h)
      · cases h
        exact .inr ⟨a, by rw [latest, ha, followed_of_current hc]; rfl, rfl⟩
      · rw [ha] at h
        cases h

theorem current_push (f : Flow) (plaintext : Bytes) :
    (f.push plaintext).current = f.current ∨
      ∃ e i, f.current = some (e, i) ∧ (f.push plaintext).current = some (e.add plaintext, i) := by
  cases ha : f.ahead with
  | some a =>
    rw [push_of_ahead ha]
    exact .inl rfl
  | none =>
    cases hc : f.current with
    | none =>
      rw [push_of_unopened ha hc]
      exact .inl hc
    | some c => exact .inr ⟨c.1, c.2, rfl, by rw [push_of_current ha hc]⟩

theorem mem_epochs_of_latest (h : f.latest = some e) : e ∈ f.epochs := by
  cases ha : f.ahead with
  | some a =>
    rw [latest, ha] at h
    cases h
    exact mem_epochs_of_ahead ha
  | none =>
    rw [latest, ha] at h
    obtain ⟨i, hc⟩ := followed_eq_some_iff.mp h
    exact mem_epochs_of_current hc

theorem Passes.mem_epochs (h : f.Passes e n) : e ∈ f.epochs := by
  rcases h.2 with h | ⟨i, hc, -⟩
  · exact mem_epochs_of_passed h
  · exact mem_epochs_of_current hc

namespace Fits

variable (h : f.Fits)

include h

theorem eq_of_samePoint (he : e ∈ f.epochs) (he' : e' ∈ f.epochs)
    (hk : e.key.SamePoint e'.key) : e = e' := by
  by_contra hne
  have : Std.Symm fun e e' : Epoch => ¬ e.key.SamePoint e'.key := ⟨fun _ _ hd hs => hd hs.symm⟩
  exact (List.pairwise_map.mp h.distinct).forall he he' hne hk

/-- The name of a message determines its epoch and its place. -/
theorem eq_of_id_eq (he : e ∈ f.epochs) (he' : e' ∈ f.epochs) (hn : n < e.size)
    (hn' : n' < e'.size) (hid : e.id n = e'.id n') : e = e' ∧ n = n' := by
  obtain ⟨hb, hi⟩ := SkippedId.mk.inj hid
  have hk : e.key.SamePoint e'.key := congrArg Field25519.ofBlock hb
  have hlast : Chain.lastIndex.toNat = 4294967295 := rfl
  have hs := h.short e he
  have hs' := h.short e' he'
  -- within an epoch the numbers do not wrap around, so they tell the places apart
  refine ⟨h.eq_of_samePoint he he' hk, ?_⟩
  have hi' := congrArg UInt32.toNat hi
  rw [UInt32.toNat_ofNat', UInt32.toNat_ofNat'] at hi'
  omega

theorem notMem_passed (he : f.followed = some e ∨ f.ahead = some e) : e ∉ f.passed := by
  intro hp
  have hd := List.pairwise_map.mp h.distinct
  rw [epochs, List.append_assoc, List.pairwise_append] at hd
  refine hd.2.2 e hp e ?_ (PublicKey.SamePoint.refl _)
  rcases he with he | he
  · exact List.mem_append_left _ (by rw [he]; exact List.mem_singleton_self e)
  · exact List.mem_append_right _ (by rw [he]; exact List.mem_singleton_self e)

theorem followed_ne_ahead (hc : f.followed = some e) (ha : f.ahead = some e') :
    ¬ e.key.SamePoint e'.key := by
  have hd := List.pairwise_map.mp h.distinct
  rw [epochs, List.pairwise_append] at hd
  exact hd.2.2 e (List.mem_append_right _ (by rw [hc]; exact List.mem_singleton_self e)) e'
    (by rw [ha]; exact List.mem_singleton_self e')

/-- In the epoch that the reader is in, it has moved past the messages before its position. -/
theorem passes_current_iff (hc : f.current = some (e, i)) : f.Passes e n ↔ n < i := by
  constructor
  · rintro ⟨-, hp | ⟨i', hc', hn⟩⟩
    · exact absurd hp (h.notMem_passed (.inl (followed_of_current hc)))
    · rw [hc] at hc'
      cases hc'
      exact hn
  · intro hn
    exact ⟨Nat.lt_of_lt_of_le hn (h.position e i hc), .inr ⟨i, hc, hn⟩⟩

theorem not_passes_ahead (ha : f.ahead = some e) : ¬ f.Passes e n := by
  rintro ⟨-, hp | ⟨i, hc, -⟩⟩
  · exact h.notMem_passed (.inr ha) hp
  · exact h.followed_ne_ahead (followed_of_current hc) ha (PublicKey.SamePoint.refl _)

theorem moveTo (hi : ∀ e, f.followed = some e → i ≤ e.size) : (f.moveTo i).Fits where
  distinct := by
    rw [keys_moveTo]
    exact h.distinct
  short := by
    rw [epochs_moveTo]
    exact h.short
  position := by
    intro e j hc
    obtain ⟨e', he', he⟩ := Option.map_eq_some_iff.mp hc
    cases he
    exact hi _ he'

theorem takeUp : f.takeUp.Fits where
  distinct := by
    rw [keys_takeUp]
    exact h.distinct
  short := by
    rw [epochs_takeUp]
    exact h.short
  position := by
    intro e j hc
    obtain ⟨e', -, he⟩ := Option.map_eq_some_iff.mp hc
    cases he
    exact Nat.zero_le _

/-- A new epoch may follow when its key is a new point. -/
theorem opened (ha : f.ahead = none) (hs : e.plaintexts = [])
    (hk : ∀ k ∈ f.keys, ¬ k.SamePoint e.key) : (f.opened e).Fits := by
  refine ⟨?_, ?_, h.position⟩
  · rw [keys, epochs_opened ha, List.map_append, List.pairwise_append]
    refine ⟨h.distinct, List.pairwise_singleton _ _, fun k hk' k' hk'' => ?_⟩
    rw [List.mem_singleton.mp hk'']
    exact hk k hk'
  · intro e' he'
    rw [epochs_opened ha] at he'
    rcases List.mem_append.mp he' with he' | he'
    · exact h.short e' he'
    · rw [List.mem_singleton.mp he', Epoch.size, hs]
      exact Nat.zero_le _

omit h in
theorem start : start.Fits where
  distinct := List.Pairwise.nil
  short := fun _ he => absurd he List.not_mem_nil
  position := fun _ _ hc => nomatch hc

/-- One more message fits while its number does. -/
theorem push (hroom : ∀ e, f.latest = some e → e.size < Chain.lastIndex.toNat)
    (plaintext : Bytes) : (f.push plaintext).Fits where
  distinct := by
    rw [keys_push]
    exact h.distinct
  short := by
    intro e he
    rcases mem_epochs_push he with he | ⟨e', he', rfl⟩
    · exact h.short e he
    · rw [Epoch.size_add]
      exact hroom e' he'
  position := by
    intro e i hc
    rcases current_push f plaintext with hc' | ⟨e', i', hc', hc''⟩
    · rw [hc'] at hc
      exact h.position e i hc
    · rw [hc''] at hc
      cases hc
      rw [Epoch.size_add]
      exact Nat.le_succ_of_le (h.position e' i hc')

end Fits

section Messages

variable [CipherSuite] {ad : Block 64} {plaintext p : Bytes} {m : RatchetMessage}
  {id : SkippedId} {key : Block 32}

/-- The flow has a message, with this plaintext. -/
def Carries (ad : Block 64) (f : Flow) (plaintext : Bytes) (m : RatchetMessage) : Prop :=
  ∃ e ∈ f.epochs, ∃ n, e.plaintexts[n]? = some plaintext ∧ m = e.message ad n plaintext

/-- The reader has moved past the message of this name, and this is the key of the message. -/
def Files (f : Flow) (id : SkippedId) (key : Block 32) : Prop :=
  ∃ e n, f.Passes e n ∧ e.id n = id ∧ Chain.messageKeyAt e.chainKey n = key

theorem Fits.not_files_of_current (h : f.Fits) (hc : f.current = some (e, i)) (hin : i ≤ n)
    (hn : n < e.size) : ¬ f.Files (e.id n) key := by
  rintro ⟨e', n', hp, hid, -⟩
  obtain ⟨rfl, rfl⟩ := h.eq_of_id_eq hp.mem_epochs (mem_epochs_of_current hc) hp.1 hn hid
  have hlt := (h.passes_current_iff hc).mp hp
  omega

theorem Fits.not_files_of_ahead (h : f.Fits) (ha : f.ahead = some e) (hn : n < e.size) :
    ¬ f.Files (e.id n) key := by
  rintro ⟨e', n', hp, hid, -⟩
  obtain ⟨rfl, rfl⟩ := h.eq_of_id_eq hp.mem_epochs (mem_epochs_of_ahead ha) hp.1 hn hid
  exact h.not_passes_ahead ha hp

theorem not_files_start : ¬ start.Files id key := by
  rintro ⟨e, n, ⟨-, h | ⟨i, h, -⟩⟩, -⟩
  · cases h
  · cases h

/-- The messages passed when the reader has moved on: those before, and those in between. -/
theorem files_moveTo (hc : f.current = some (e, i)) (hij : i ≤ n)
    (hn : n ≤ e.size) :
    (f.moveTo n).Files id key ↔ f.Files id key ∨
      ∃ j, i ≤ j ∧ j < n ∧ e.id j = id ∧ Chain.messageKeyAt e.chainKey j = key := by
  have hc' := current_moveTo hc n
  constructor
  · rintro ⟨e', j, ⟨hj, hp | ⟨k, hk, hjk⟩⟩, hid, hkey⟩
    · exact .inl ⟨e', j, ⟨hj, .inl hp⟩, hid, hkey⟩
    · rw [hc'] at hk
      cases hk
      by_cases hji : j < i
      · exact .inl ⟨e, j, ⟨hj, .inr ⟨i, hc, hji⟩⟩, hid, hkey⟩
      · exact .inr ⟨j, Nat.le_of_not_lt hji, hjk, hid, hkey⟩
  · rintro (⟨e', j, ⟨hj, hp | ⟨k, hk, hjk⟩⟩, hid, hkey⟩ | ⟨j, -, hjn, hid, hkey⟩)
    · exact ⟨e', j, ⟨hj, .inl hp⟩, hid, hkey⟩
    · rw [hc] at hk
      cases hk
      exact ⟨e, j, ⟨hj, .inr ⟨n, hc', by omega⟩⟩, hid, hkey⟩
    · exact ⟨e, j, ⟨by omega, .inr ⟨n, hc', hjn⟩⟩, hid, hkey⟩

/-- Taking up the next epoch at the end of the one before passes no further message. -/
theorem files_takeUp (hend : ∀ e i, f.current = some (e, i) → i = e.size) :
    f.takeUp.Files id key ↔ f.Files id key := by
  constructor
  · rintro ⟨e, n, ⟨hn, hp | ⟨i, hc, hi⟩⟩, hid, hkey⟩
    · refine ⟨e, n, ⟨hn, ?_⟩, hid, hkey⟩
      rcases List.mem_append.mp hp with hp | hp
      · exact .inl hp
      · obtain ⟨i, hc⟩ := followed_eq_some_iff.mp (Option.mem_toList.mp hp)
        exact .inr ⟨i, hc, by rw [hend e i hc]; exact hn⟩
    · obtain ⟨a, -, ha⟩ := Option.map_eq_some_iff.mp hc
      cases ha
      exact absurd hi (Nat.not_lt_zero n)
  · rintro ⟨e, n, ⟨hn, hp | ⟨i, hc, hi⟩⟩, hid, hkey⟩
    · exact ⟨e, n, ⟨hn, .inl (List.mem_append_left _ hp)⟩, hid, hkey⟩
    · refine ⟨e, n, ⟨hn, .inl (List.mem_append_right _ ?_)⟩, hid, hkey⟩
      exact Option.mem_toList.mpr (followed_of_current hc)

/-- What the writer sends, the reader has not passed. -/
theorem Fits.files_push (h : f.Fits) (plaintext : Bytes) :
    (f.push plaintext).Files id key ↔ f.Files id key := by
  cases ha : f.ahead with
  | some a => rw [push_of_ahead ha]; rfl
  | none =>
    cases hc : f.current with
    | none => rw [push_of_unopened ha hc]
    | some c =>
      obtain ⟨a, i⟩ := c
      rw [push_of_current ha hc]
      have hi := h.position a i hc
      constructor
      · rintro ⟨e, n, ⟨hn, hp | ⟨j, hj, hnj⟩⟩, hid, hkey⟩
        · exact ⟨e, n, ⟨hn, .inl hp⟩, hid, hkey⟩
        · cases hj
          exact ⟨a, n, ⟨Nat.lt_of_lt_of_le hnj hi, .inr ⟨i, hc, hnj⟩⟩, hid, hkey⟩
      · rintro ⟨e, n, ⟨hn, hp | ⟨j, hj, hnj⟩⟩, hid, hkey⟩
        · exact ⟨e, n, ⟨hn, .inl hp⟩, hid, hkey⟩
        · rw [hc] at hj
          cases hj
          exact ⟨a.add plaintext, n,
            ⟨by rw [Epoch.size_add]; exact Nat.lt_succ_of_lt hn, .inr ⟨i, rfl, hnj⟩⟩, hid, hkey⟩

theorem Carries.of_epochs {f' : Flow} (h : f.Carries ad p m)
    (heps : ∀ e ∈ f.epochs, e ∈ f'.epochs) : f'.Carries ad p m := by
  obtain ⟨e, he, n, hn, rfl⟩ := h
  exact ⟨e, heps e he, n, hn, rfl⟩

/-- Of two messages of a flow that bear the same name, each is the other. -/
theorem Fits.eq_of_carries (h : f.Fits) {p' : Bytes} {m' : RatchetMessage}
    (hm : f.Carries ad p m) (hm' : f.Carries ad p' m') (hid : m.id = m'.id) : m = m' := by
  obtain ⟨e, he, n, hn, rfl⟩ := hm
  obtain ⟨e', he', n', hn', rfl⟩ := hm'
  obtain ⟨rfl, rfl⟩ := h.eq_of_id_eq he he' (Epoch.lt_size hn) (Epoch.lt_size hn') hid
  rw [hn] at hn'
  cases hn'
  rfl

/-- The next message of the latest epoch bears a new name. -/
theorem Fits.id_ne_of_carries (h : f.Fits) (hl : f.latest = some e)
    (hroom : e.size < Chain.lastIndex.toNat) (hm : f.Carries ad p m) : m.id ≠ e.id e.size := by
  obtain ⟨e', he', n, hn, rfl⟩ := hm
  intro hid
  obtain ⟨hb, hi⟩ := SkippedId.mk.inj hid
  have hk : e'.key.SamePoint e.key := congrArg Field25519.ofBlock hb
  obtain rfl := h.eq_of_samePoint he' (mem_epochs_of_latest hl) hk
  have hlast : Chain.lastIndex.toNat = 4294967295 := rfl
  have hlt := Epoch.lt_size hn
  have hi : (e'.id n).number.toNat = (e'.id e'.size).number.toNat := congrArg UInt32.toNat hi
  rw [e'.toNat_number_id (by omega), e'.toNat_number_id (by omega)] at hi
  omega

/-- A push adds a message and keeps the others. -/
theorem Carries.push (h : f.Carries ad p m) (plaintext : Bytes) :
    (f.push plaintext).Carries ad p m := by
  obtain ⟨e, he, n, hn, rfl⟩ := h
  have hadd : (e.add plaintext).plaintexts[n]? = some p := by
    rw [← hn]
    exact List.getElem?_append_left (Epoch.lt_size hn)
  cases ha : f.ahead with
  | some a =>
    rw [push_of_ahead ha]
    rcases mem_epochs_iff.mp he with he | he | he
    · exact ⟨e, mem_epochs_of_passed he, n, hn, rfl⟩
    · exact ⟨e, mem_epochs_iff.mpr (.inr (.inl he)), n, hn, rfl⟩
    · rw [ha] at he
      cases he
      exact ⟨_, mem_epochs_of_ahead rfl, n, hadd, rfl⟩
  | none =>
    cases hc : f.current with
    | none =>
      rw [push_of_unopened ha hc]
      exact ⟨e, he, n, hn, rfl⟩
    | some c =>
      obtain ⟨a, i⟩ := c
      rw [push_of_current ha hc]
      rcases mem_epochs_iff.mp he with he | ⟨j, he⟩ | he
      · exact ⟨e, mem_epochs_of_passed he, n, hn, rfl⟩
      · rw [hc] at he
        cases he
        exact ⟨_, mem_epochs_of_current rfl, n, hadd, rfl⟩
      · rw [ha] at he
        cases he

theorem carries_push (hl : f.latest = some e) (plaintext : Bytes) :
    (f.push plaintext).Carries ad plaintext (e.message ad e.size plaintext) := by
  have hadd : (e.add plaintext).plaintexts[e.size]? = some plaintext := by
    simp [Epoch.add, Epoch.size]
  cases ha : f.ahead with
  | some a =>
    rw [latest, ha] at hl
    cases hl
    rw [push_of_ahead ha]
    exact ⟨e.add plaintext, mem_epochs_of_ahead rfl, e.size, hadd, rfl⟩
  | none =>
    rw [latest, ha] at hl
    obtain ⟨i, hc⟩ := followed_eq_some_iff.mp hl
    rw [push_of_current ha hc]
    exact ⟨e.add plaintext, mem_epochs_of_current rfl, e.size, hadd, rfl⟩

end Messages

end Flow

end MultiDevice
