import MultiDevice.Proofs.Key.Numbering
import MultiDevice.Proofs.Key.Ring

/-!
# How long signed pre-keys are kept

A signed pre-key that is put out of use is kept until its grace period is over, and dropped by the
first cleanup after that. So what a device keeps can be read off a history of the keys that were put
out of use: whatever is kept is in use, was made by a rotation that is not finished, or is in its
grace period, and whatever is in its grace period is kept.

## Main definitions

* `Supersession`: a signed pre-key that was put out of use, and when
* `Shelf`: the signed pre-keys of a device with what decides how long they are kept
* `Shelf.Retains`: the shelf holds what a history says, and maybe keys that are due
* `Shelf.IsTidy`: no key is due
* `Shelf.Reserves`: the numbers in use were given out, and the key of an unfinished rotation is kept

## Main results

* `Shelf.Retains.create`, `.promoted`, `.purged`, `.later`: what rotations, cleanups and time keep
* `Shelf.Retains.mem_keys_iff`: what a tidy shelf holds
-/

namespace MultiDevice

/-- A sum of a point in time and a span is that span later. -/
theorem Time.eq_of_add? {t later : Time} {d : Duration} (h : t.add? d = some later) :
    later = ⟨t.nanoseconds + d.nanoseconds⟩ := by
  unfold add? at h
  dsimp only at h
  split at h
  · cases h
    rfl
  · cases h

/-- A signed pre-key that was put out of use, and when. -/
structure Supersession where
  /-- The number of the key. -/
  id : UInt32
  /-- When another key took its place. -/
  time : Time

namespace Supersession

variable {x : Supersession} {grace : Duration} {now now' : Time}

/-- When the grace period of the key ends. -/
def expiry (x : Supersession) (grace : Duration) : Time :=
  ⟨x.time.nanoseconds + grace.nanoseconds⟩

/-- The grace period of the key is not over. -/
def InGrace (x : Supersession) (grace : Duration) (now : Time) : Prop :=
  now.nanoseconds < x.time.nanoseconds + grace.nanoseconds

theorem inGrace_iff : x.InGrace grace now ↔ ¬ x.expiry grace ≤ now := Int.not_le.symm

/-- A grace period that is not over was not over before. -/
theorem InGrace.before (h : x.InGrace grace now') (hle : now ≤ now') : x.InGrace grace now :=
  Int.lt_of_le_of_lt hle h

end Supersession

/-- The signed pre-keys of a device, and what decides how long they are kept. -/
structure Shelf where
  /-- The signed pre-keys. -/
  ring : SignedPreKeyRing
  /-- The number of the key that an unfinished rotation made. -/
  pending : Option UInt32
  /-- How long a superseded key is kept. -/
  grace : Duration
  /-- What the clock shows. -/
  now : Time

namespace Shelf

/-- The shelf holds the key in use, the key of an unfinished rotation, and the keys of a history
whose grace period is not over; besides only keys of the history that are due. -/
structure Retains (history : List Supersession) (k : Shelf) : Prop where
  current_mem : k.ring.current ∈ k.ring.keys
  current_notMem : k.ring.current ∉ k.ring.expiries
  expiry_mem : ∀ id ∈ k.ring.expiries, id ∈ k.ring.keys
  accounted : ∀ id ∈ k.ring.keys,
    id = k.ring.current ∨ k.pending = some id ∨ id ∈ k.ring.expiries
  past : ∀ x ∈ history, x.time ≤ k.now
  scheduled : ∀ (id : UInt32) (expiry : Time), k.ring.expiries[id]? = some expiry →
    ∃ x ∈ history, x.id = id ∧ x.expiry k.grace = expiry
  kept : ∀ x ∈ history, x.InGrace k.grace k.now → x.id ∈ k.ring.keys ∧
    ∀ expiry, k.ring.expiries[x.id]? = some expiry → x.expiry k.grace ≤ expiry

/-- No key is to be dropped now. -/
def IsTidy (k : Shelf) : Prop :=
  ∀ (id : UInt32) (expiry : Time), k.ring.expiries[id]? = some expiry → ¬ expiry ≤ k.now

/-- The number of the key that an unfinished rotation made, while the key is kept. -/
def unfinished? (k : Shelf) : Option UInt32 := k.pending.filter fun id => id ∈ k.ring.keys

/-- The shelf once a rotation put a key in use, before anything is dropped. -/
def promoted (id : UInt32) (k : Shelf) : Shelf :=
  let expiries := k.ring.expiries.erase id
  { k with
    pending := none
    ring := { k.ring with
      current := id
      expiries := if k.ring.current = id then expiries
        else expiries.insert k.ring.current ⟨k.now.nanoseconds + k.grace.nanoseconds⟩ } }

/-- The keys that are put out of use when a rotation puts a key in use. -/
def supersedes (id : UInt32) (k : Shelf) : List Supersession :=
  if k.ring.current = id then [] else [⟨k.ring.current, k.now⟩]

/-- The shelf after the keys that are due were dropped. -/
def purged (k : Shelf) : Shelf := { k with ring := (k.ring.purge k.now).2 }

variable {k : Shelf} {history : List Supersession}

theorem mem_unfinished? {id : UInt32} :
    k.unfinished? = some id ↔ k.pending = some id ∧ id ∈ k.ring.keys := by
  simp [unfinished?, Option.filter_eq_some_iff]

/-- **What a tidy shelf holds.** -/
theorem Retains.mem_keys_iff (h : k.Retains history) (htidy : k.IsTidy) {id : UInt32} :
    id ∈ k.ring.keys ↔ id = k.ring.current ∨ k.unfinished? = some id ∨
      ∃ x ∈ history, x.id = id ∧ x.InGrace k.grace k.now := by
  constructor
  · intro hid
    rcases h.accounted id hid with hcurrent | hpending | hexpiry
    · exact .inl hcurrent
    · exact .inr (.inl (mem_unfinished?.mpr ⟨hpending, hid⟩))
    · obtain ⟨expiry, hexpiry⟩ := Entries.exists_of_mem hexpiry
      obtain ⟨x, hx, hxid, rfl⟩ := h.scheduled id expiry hexpiry
      exact .inr (.inr ⟨x, hx, hxid, Supersession.inGrace_iff.mpr (htidy id _ hexpiry)⟩)
  · rintro (rfl | hunfinished | ⟨x, hx, rfl, hgrace⟩)
    · exact h.current_mem
    · exact (mem_unfinished?.mp hunfinished).2
    · exact (h.kept x hx hgrace).1

/-- With one new key there is no history. -/
theorem retains_of_startingAt {first : UInt32} {now : Time} {e e' : Entropy} {r : SignedPreKeyRing}
    (h : SignedPreKeyRing.startingAt first now e = .ok r e') (grace : Duration) (later : Time) :
    Retains [] ⟨r, none, grace, later⟩ := by
  obtain ⟨rfl, -⟩ := SignedPreKeyRing.eq_of_startingAt h
  have hnone : ∀ id, id ∉ (∅ : Std.ExtTreeMap UInt32 Time) := fun _ => Std.ExtTreeMap.not_mem_empty
  refine ⟨Std.ExtTreeMap.mem_insert_self, hnone _, fun id hid => absurd hid (hnone id), ?_, nofun,
    fun id expiry hexpiry => absurd (Entries.mem_of_getElem? hexpiry) (hnone id), nofun⟩
  intro id hid
  rcases Entries.mem_insert_iff.mp hid with hfirst | hid
  · exact .inl hfirst
  · exact absurd hid Std.ExtTreeMap.not_mem_empty

/-- Time may pass. -/
theorem Retains.later (h : k.Retains history) {now : Time} (hle : k.now ≤ now) :
    Retains history { k with now } where
  current_mem := h.current_mem
  current_notMem := h.current_notMem
  expiry_mem := h.expiry_mem
  accounted := h.accounted
  past x hx := Int.le_trans (h.past x hx) hle
  scheduled := h.scheduled
  kept x hx hgrace := h.kept x hx (hgrace.before hle)

/-- A rotation that cannot take up an unfinished one makes a key, which is kept for it. -/
theorem Retains.create (h : k.Retains history) {now : Time} {e e' : Entropy} {key : SignedPreKey}
    {r : SignedPreKeyRing} (hnone : k.pending.bind k.ring.get? = none)
    (hid : key.id = k.ring.nextId) (hc : k.ring.create now e = .ok (key, r) e') :
    Retains history { k with ring := r, pending := some key.id } := by
  obtain ⟨-, rfl, -⟩ := SignedPreKeyRing.eq_of_create hc
  have hmem : ∀ id ∈ k.ring.keys, id ∈ k.ring.keys.insert k.ring.nextId key := fun id hid =>
    Entries.mem_insert_iff.mpr (.inr hid)
  refine ⟨hmem _ h.current_mem, h.current_notMem, fun id hid => hmem id (h.expiry_mem id hid), ?_,
    h.past, h.scheduled, fun x hx hgrace => ?_⟩
  · intro id hmem
    rcases Entries.mem_insert_iff.mp hmem with hnext | hold
    · exact .inr (.inl (congrArg some (hid.trans hnext.symm)))
    · rcases h.accounted id hold with hcurrent | hpending | hexpiry
      · exact .inl hcurrent
      · obtain ⟨key', hkey'⟩ := Entries.exists_of_mem hold
        rw [hpending] at hnone
        cases hnone.symm.trans hkey'
      · exact .inr (.inr hexpiry)
  · obtain ⟨hkept, hexpiry⟩ := h.kept x hx hgrace
    exact ⟨hmem _ hkept, hexpiry⟩

/-- What is scheduled once a key was put in use. -/
theorem promoted_expiry {id other : UInt32} {expiry : Time}
    (h : (k.promoted id).ring.expiries[other]? = some expiry) :
    other ≠ id ∧ ((k.ring.current ≠ id ∧ other = k.ring.current ∧
        expiry = ⟨k.now.nanoseconds + k.grace.nanoseconds⟩) ∨
      k.ring.expiries[other]? = some expiry) := by
  have herased : ∀ {expiry : Time}, (k.ring.expiries.erase id)[other]? = some expiry →
      other ≠ id ∧ k.ring.expiries[other]? = some expiry := by
    intro expiry h
    refine ⟨?_, Entries.of_erase h⟩
    rintro rfl
    rw [Std.ExtTreeMap.getElem?_erase_self] at h
    cases h
  unfold promoted at h
  dsimp only at h
  split at h
  · obtain ⟨hne, h⟩ := herased h
    exact ⟨hne, .inr h⟩
  · next hcurrent =>
    rcases Entries.of_insert h with ⟨rfl, rfl⟩ | ⟨-, h⟩
    · exact ⟨hcurrent, .inl ⟨hcurrent, rfl, rfl⟩⟩
    · obtain ⟨hne, h⟩ := herased h
      exact ⟨hne, .inr h⟩

/-- What was scheduled stays so, except for the key that is put in use. -/
theorem mem_promoted_expiries {id other : UInt32} (hne : other ≠ id)
    (h : other ∈ k.ring.expiries) : other ∈ (k.promoted id).ring.expiries := by
  have herased : other ∈ k.ring.expiries.erase id := Entries.mem_erase_iff.mpr ⟨hne, h⟩
  unfold promoted
  dsimp only
  split
  · exact herased
  · exact Entries.mem_insert_iff.mpr (.inr herased)

/-- The key that was in use is scheduled when another one is put in use. -/
theorem current_mem_promoted {id : UInt32} (hne : k.ring.current ≠ id) :
    k.ring.current ∈ (k.promoted id).ring.expiries := by
  unfold promoted
  dsimp only
  rw [if_neg hne]
  exact Std.ExtTreeMap.mem_insert_self

/-- **A rotation puts the key that it made in use**, and the one before goes into the history. -/
theorem Retains.promoted (h : k.Retains history) {id : UInt32} (hpending : k.pending = some id)
    (hid : id ∈ k.ring.keys) : (k.promoted id).Retains (history ++ k.supersedes id) where
  current_mem := hid
  current_notMem hexpiry := by
    obtain ⟨expiry, hexpiry⟩ := Entries.exists_of_mem hexpiry
    exact (promoted_expiry hexpiry).1 rfl
  expiry_mem other hother := by
    obtain ⟨expiry, hexpiry⟩ := Entries.exists_of_mem hother
    rcases (promoted_expiry hexpiry).2 with ⟨-, rfl, -⟩ | hold
    · exact h.current_mem
    · exact h.expiry_mem other (Entries.mem_of_getElem? hold)
  accounted other hother := by
    by_cases heq : other = id
    · exact .inl heq
    right
    right
    rcases h.accounted other hother with rfl | hother | hexpiry
    · exact current_mem_promoted heq
    · cases hpending.symm.trans hother
      exact absurd rfl heq
    · exact mem_promoted_expiries heq hexpiry
  past x hx := by
    rcases List.mem_append.mp hx with hx | hx
    · exact h.past x hx
    · unfold supersedes at hx
      split at hx
      · cases hx
      · cases List.mem_singleton.mp hx
        exact Int.le_refl _
  scheduled other expiry hexpiry := by
    rcases (promoted_expiry hexpiry).2 with ⟨hne, rfl, rfl⟩ | hold
    · refine ⟨⟨k.ring.current, k.now⟩, List.mem_append_right _ ?_, rfl, rfl⟩
      rw [supersedes, if_neg hne]
      exact List.mem_singleton_self _
    · obtain ⟨x, hx, hxid⟩ := h.scheduled other expiry hold
      exact ⟨x, List.mem_append_left _ hx, hxid⟩
  kept x hx hgrace := by
    have hkeys : x.id ∈ k.ring.keys ∧ x.time ≤ k.now ∧
        ∀ expiry, k.ring.expiries[x.id]? = some expiry → x.expiry k.grace ≤ expiry := by
      rcases List.mem_append.mp hx with hx | hx
      · obtain ⟨hkept, hexpiry⟩ := h.kept x hx hgrace
        exact ⟨hkept, h.past x hx, hexpiry⟩
      · unfold supersedes at hx
        split at hx
        · cases hx
        · cases List.mem_singleton.mp hx
          refine ⟨h.current_mem, Int.le_refl _, fun expiry hexpiry => ?_⟩
          exact absurd (Entries.mem_of_getElem? hexpiry) h.current_notMem
    obtain ⟨hkept, hpast, hexpiry⟩ := hkeys
    refine ⟨hkept, fun expiry hscheduled => ?_⟩
    rcases (promoted_expiry hscheduled).2 with ⟨-, -, rfl⟩ | hold
    · exact Int.add_le_add_right hpast _
    · exact hexpiry expiry hold

theorem mem_purged_keys {id : UInt32} :
    id ∈ k.purged.ring.keys ↔ id ∈ k.ring.keys ∧ k.ring.isDue k.now id = false :=
  SignedPreKeyRing.mem_purge_keys

theorem mem_purged_expiries {id : UInt32} :
    id ∈ k.purged.ring.expiries ↔ id ∈ k.ring.expiries ∧ k.ring.isDue k.now id = false :=
  SignedPreKeyRing.mem_purge_expiries

theorem getElem?_purged_expiries {id : UInt32} {expiry : Time} :
    k.purged.ring.expiries[id]? = some expiry ↔
      k.ring.expiries[id]? = some expiry ∧ k.ring.isDue k.now id = false :=
  SignedPreKeyRing.getElem?_purge_expiries

/-- A cleanup drops no key that is in use or in its grace period. -/
theorem Retains.purged (h : k.Retains history) : k.purged.Retains history where
  current_mem := mem_purged_keys.mpr ⟨h.current_mem, SignedPreKeyRing.isDue_current⟩
  current_notMem hid := h.current_notMem (mem_purged_expiries.mp hid).1
  expiry_mem id hid := by
    obtain ⟨hexpiry, hdue⟩ := mem_purged_expiries.mp hid
    exact mem_purged_keys.mpr ⟨h.expiry_mem id hexpiry, hdue⟩
  accounted id hid := by
    obtain ⟨hkey, hdue⟩ := mem_purged_keys.mp hid
    rcases h.accounted id hkey with hcurrent | hpending | hexpiry
    · exact .inl hcurrent
    · exact .inr (.inl hpending)
    · exact .inr (.inr (mem_purged_expiries.mpr ⟨hexpiry, hdue⟩))
  past := h.past
  scheduled id expiry hexpiry := h.scheduled id expiry (getElem?_purged_expiries.mp hexpiry).1
  kept x hx hgrace := by
    obtain ⟨hkept, hexpiry⟩ := h.kept x hx hgrace
    refine ⟨mem_purged_keys.mpr ⟨hkept, (Bool.not_eq_true _).mp fun hdue => ?_⟩,
      fun expiry he => ?_⟩
    · obtain ⟨-, expiry, he, hle⟩ := SignedPreKeyRing.isDue_iff.mp hdue
      exact Supersession.inGrace_iff.mp hgrace (Int.le_trans (hexpiry expiry he) hle)
    · exact hexpiry expiry (getElem?_purged_expiries.mp he).1

/-- A cleanup drops every key that is due. -/
theorem Retains.isTidy_purged (h : k.Retains history) : k.purged.IsTidy := by
  intro id expiry hexpiry (hle : expiry ≤ k.now)
  obtain ⟨hexpiry, hdue⟩ := getElem?_purged_expiries.mp hexpiry
  have hne : id ≠ k.ring.current := by
    rintro rfl
    exact h.current_notMem (Entries.mem_of_getElem? hexpiry)
  rw [SignedPreKeyRing.isDue_iff.mpr ⟨hne, expiry, hexpiry, hle⟩] at hdue
  cases hdue

/-! ## The key of an unfinished rotation -/

/-- At most `n` numbers were given out, and the key of an unfinished rotation is kept and not to be
dropped. -/
structure Reserves (n : Nat) (k : Shelf) : Prop where
  numbered : k.ring.Numbered n
  mem : ∀ id, k.pending = some id → id ∈ k.ring.keys
  notMem : ∀ id, k.pending = some id → id ∉ k.ring.expiries

variable {n : Nat}

theorem Reserves.mono {n' : Nat} (h : k.Reserves n) (hle : n ≤ n') : k.Reserves n' :=
  ⟨h.numbered.mono hle, h.mem, h.notMem⟩

/-- A ring that starts with the first number. -/
theorem reserves_of_startingAt {now : Time} {e e' : Entropy} {r : SignedPreKeyRing}
    (h : SignedPreKeyRing.startingAt 1 now e = .ok r e') (grace : Duration) (later : Time) :
    Reserves 2 ⟨r, none, grace, later⟩ := by
  have hbefore : SignedPreKeyRing.Numbered 1
      { keys := ∅, expiries := ∅, current := 0, nextId := 1 } :=
    ⟨Nat.le_refl 1, fun _ hid => absurd hid Std.ExtTreeMap.not_mem_empty,
      fun _ hid => absurd hid Std.ExtTreeMap.not_mem_empty⟩
  exact ⟨hbefore.startingAt (by decide) h, nofun, nofun⟩

theorem Reserves.unfinished?_eq (h : k.Reserves n) : k.unfinished? = k.pending := by
  cases hpending : k.pending with
  | none => simp [unfinished?, hpending]
  | some id => exact mem_unfinished?.mpr ⟨hpending, h.mem id hpending⟩

/-- A new key takes a number under which nothing is scheduled. -/
theorem Reserves.create (h : k.Reserves n) (hroom : n + 1 < UInt32.size) {now : Time}
    {e e' : Entropy} {key : SignedPreKey} {r : SignedPreKeyRing}
    (hc : k.ring.create now e = .ok (key, r) e') :
    Reserves (n + 1) { k with ring := r, pending := some key.id } := by
  obtain ⟨hnumbered, hid, -, hexpiries, -⟩ := h.numbered.create hroom hc
  obtain ⟨-, hring, -⟩ := SignedPreKeyRing.eq_of_create hc
  refine ⟨hnumbered, ?_, ?_⟩
  · rintro id ⟨⟩
    rw [hid, hring]
    exact Std.ExtTreeMap.mem_insert_self
  · rintro id ⟨⟩ hexpiry
    rw [hid, hexpiries] at hexpiry
    exact Nat.lt_irrefl _ (h.numbered.expiry_lt _ hexpiry)

theorem Reserves.promoted (h : k.Reserves n) (hcurrent : k.ring.current ∈ k.ring.keys)
    (id : UInt32) : (k.promoted id).Reserves n := by
  refine ⟨h.numbered.of_subset rfl (fun _ hother => hother) fun other hother => ?_, nofun, nofun⟩
  obtain ⟨expiry, hexpiry⟩ := Entries.exists_of_mem hother
  rcases (promoted_expiry hexpiry).2 with ⟨-, rfl, -⟩ | hold
  · exact .inr hcurrent
  · exact .inl (Entries.mem_of_getElem? hold)

theorem Reserves.purged (h : k.Reserves n) : k.purged.Reserves n := by
  refine ⟨h.numbered.of_subset rfl (fun id hid => (mem_purged_keys.mp hid).1) fun id hid =>
    .inl (mem_purged_expiries.mp hid).1, fun id hpending => ?_, fun id hpending hid => ?_⟩
  · refine mem_purged_keys.mpr ⟨h.mem id hpending, (Bool.not_eq_true _).mp fun hdue => ?_⟩
    obtain ⟨-, expiry, hexpiry, -⟩ := SignedPreKeyRing.isDue_iff.mp hdue
    exact h.notMem id hpending (Entries.mem_of_getElem? hexpiry)
  · exact h.notMem id hpending (mem_purged_expiries.mp hid).1

end Shelf

end MultiDevice
