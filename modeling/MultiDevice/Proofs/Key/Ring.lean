import MultiDevice.Proofs.Key.PreKeys

/-!
# Sound rings of signed pre-keys

A ring has one signed pre-key in use and keeps the superseded ones until they are due. For that to
work the key in use must be among those that are kept, and only superseded keys that are kept may be
scheduled to be dropped. A ring starts this way and nothing that is done with it changes it: in
particular a scheduled key that is put in use again is no longer scheduled, so a cleanup never drops
the key in use.

## Main definitions

* `SignedPreKeyRing.Filed`: the keys are kept under their own numbers
* `SignedPreKeyRing.Sound`: the key in use is kept, and what is scheduled is kept and not in use

## Main results

* `SignedPreKeyRing.startingAt_sound`, `SignedPreKeyRing.Sound.create` and its siblings: rings are
  sound
* `SignedPreKeyRing.Sound.isDue_iff`: what a cleanup of a sound ring drops
-/

namespace MultiDevice

namespace SignedPreKeyRing

variable {r r' : SignedPreKeyRing} {now : Time} {e e' : Entropy} {key : SignedPreKey} {id : UInt32}

/-! ## Keys under their own numbers -/

/-- The keys are kept under their own numbers. -/
def Filed (r : SignedPreKeyRing) : Prop :=
  ∀ (id : UInt32) (key : SignedPreKey), r.keys[id]? = some key → key.id = id

theorem Drops.filed (h : Drops r r') (hr : r.Filed) : r'.Filed := fun id key hk =>
  hr id key (h.keys id key hk)

/-- The key kept under the next number has that number, whether it is new or was there. -/
theorem Filed.id_next (hr : r.Filed) (now : Time) (secret : Secret) :
    ((r.keys[r.nextId]?).getD ⟨r.nextId, now, secret⟩).id = r.nextId := by
  cases hk : r.keys[r.nextId]? with
  | none => rfl
  | some key => exact hr _ key hk

/-- The key that `create` answers is kept under its number. -/
theorem create_filed (hr : r.Filed) (h : r.create now e = .ok (key, r') e') :
    r'.Filed ∧ r'.keys[key.id]? = some key ∧ r'.current = r.current := by
  obtain ⟨hkey, rfl, -⟩ := eq_of_create h
  have hid : key.id = r.nextId := hkey ▸ hr.id_next now _
  refine ⟨fun id key hk => ?_, ?_, rfl⟩
  · rcases Entries.of_insert hk with ⟨rfl, rfl⟩ | ⟨-, hk⟩
    · exact hid
    · exact hr id key hk
  · rw [hid]
    exact Std.ExtTreeMap.getElem?_insert_self

/-- A key that is kept can be put in use, in place of another one. -/
theorem exists_promote_of_mem (h : id ∈ r.keys) :
    ∃ previous r', r.promote id = .ok (previous, r') ∧
      ∀ old, previous = some old → old ≠ r'.current := by
  unfold promote
  rw [if_pos h]
  refine ⟨_, _, rfl, fun old hold => ?_⟩
  dsimp only
  split at hold
  · cases hold
  · next hne =>
    cases hold
    exact hne

/-- A key that is not in use can be scheduled to be dropped. -/
theorem exists_expire_of_ne (h : id ≠ r.current) (expiry : Time) :
    ∃ r', r.expire id expiry = .ok r' := by
  unfold expire
  rw [if_neg h]
  split
  · exact ⟨_, rfl⟩
  · exact ⟨_, rfl⟩

theorem startingAt_filed {first : UInt32} (h : startingAt first now e = .ok r e') : r.Filed := by
  obtain ⟨rfl, -⟩ := eq_of_startingAt h
  intro id key hk
  rcases Entries.of_insert hk with ⟨rfl, rfl⟩ | ⟨-, hk⟩
  · rfl
  · cases hk

/-! ## Cleanups -/

/-- A key is due when it is not in use and its expiry is not later than now. -/
theorem isDue_iff : r.isDue now id = true ↔
    id ≠ r.current ∧ ∃ expiry, r.expiries[id]? = some expiry ∧ expiry ≤ now := by
  simp [isDue, Option.any_eq_true]

theorem isDue_current : r.isDue now r.current = false := by
  simp [isDue]

theorem mem_purge_keys : id ∈ (r.purge now).2.keys ↔ id ∈ r.keys ∧ r.isDue now id = false :=
  Entries.mem_filter_iff.trans (and_congr_right fun _ => (Bool.not_eq_true' _).to_iff)

theorem mem_purge_expiries :
    id ∈ (r.purge now).2.expiries ↔ id ∈ r.expiries ∧ r.isDue now id = false :=
  Entries.mem_filter_iff.trans (and_congr_right fun _ => (Bool.not_eq_true' _).to_iff)

theorem getElem?_purge_expiries {expiry : Time} :
    (r.purge now).2.expiries[id]? = some expiry ↔
      r.expiries[id]? = some expiry ∧ r.isDue now id = false :=
  Entries.getElem?_filter_iff.trans (and_congr_right fun _ => (Bool.not_eq_true' _).to_iff)

/-! ## Sound rings -/

/-- The keys are kept under their own numbers, the key in use is kept and not scheduled to be
dropped, and what is scheduled is kept. -/
structure Sound (r : SignedPreKeyRing) : Prop where
  filed : r.Filed
  current_mem : r.current ∈ r.keys
  current_notMem : r.current ∉ r.expiries
  expiry_mem : ∀ id ∈ r.expiries, id ∈ r.keys

theorem startingAt_sound {first : UInt32} (h : startingAt first now e = .ok r e') : r.Sound := by
  have hfiled := startingAt_filed h
  obtain ⟨rfl, -⟩ := eq_of_startingAt h
  have hnone : ∀ id, id ∉ (∅ : Std.ExtTreeMap UInt32 Time) := fun _ => Std.ExtTreeMap.not_mem_empty
  exact ⟨hfiled, Std.ExtTreeMap.mem_insert_self, hnone _, fun id hid => absurd hid (hnone id)⟩

namespace Sound

theorem create (hr : r.Sound) (h : r.create now e = .ok (key, r') e') : r'.Sound := by
  have hfiled := (create_filed hr.filed h).1
  obtain ⟨-, rfl, -⟩ := eq_of_create h
  exact ⟨hfiled, Entries.mem_insert_iff.mpr (.inr hr.current_mem), hr.current_notMem,
    fun id hid => Entries.mem_insert_iff.mpr (.inr (hr.expiry_mem id hid))⟩

/-- A key that is kept may be put in use, and then it is no longer scheduled. -/
theorem putInUse (hr : r.Sound) (hid : id ∈ r.keys) :
    Sound { r with expiries := r.expiries.erase id, current := id } where
  filed := hr.filed
  current_mem := hid
  current_notMem hexpiry := (Entries.mem_erase_iff.mp hexpiry).1 rfl
  expiry_mem other hother := hr.expiry_mem other (Entries.mem_erase_iff.mp hother).2

/-- A superseded key that is kept may be scheduled. -/
theorem schedule (hr : r.Sound) (hid : id ∈ r.keys) (hne : id ≠ r.current) (expiry : Time) :
    Sound { r with expiries := r.expiries.insert id expiry } where
  filed := hr.filed
  current_mem := hr.current_mem
  current_notMem hexpiry := by
    rcases Entries.mem_insert_iff.mp hexpiry with heq | hold
    · exact hne heq.symm
    · exact hr.current_notMem hold
  expiry_mem other hother := by
    rcases Entries.mem_insert_iff.mp hother with rfl | hold
    · exact hid
    · exact hr.expiry_mem other hold

theorem promote {previous : Option UInt32} (hr : r.Sound)
    (h : r.promote id = .ok (previous, r')) : r'.Sound := by
  unfold SignedPreKeyRing.promote at h
  split at h
  · next hid =>
    cases h
    exact hr.putInUse hid
  · cases h

theorem expire {expiry : Time} (hr : r.Sound) (h : r.expire id expiry = .ok r') : r'.Sound := by
  unfold SignedPreKeyRing.expire at h
  split at h
  · cases h
  · next hne =>
    split at h
    · next hid =>
      cases h
      exact hr.schedule hid hne expiry
    · cases h
      exact hr

/-- A cleanup drops superseded keys only. -/
theorem purge (hr : r.Sound) (now : Time) : (r.purge now).2.Sound where
  filed := (r.purge_drops now).filed hr.filed
  current_mem := mem_purge_keys.mpr ⟨hr.current_mem, isDue_current⟩
  current_notMem hid := hr.current_notMem (mem_purge_expiries.mp hid).1
  expiry_mem id hid := by
    obtain ⟨hexpiry, hdue⟩ := mem_purge_expiries.mp hid
    exact mem_purge_keys.mpr ⟨hr.expiry_mem id hexpiry, hdue⟩

/-- The key in use can be read. -/
theorem exists_current (hr : r.Sound) :
    ∃ key, r.current? = .ok key ∧ r.keys[r.current]? = some key := by
  obtain ⟨key, hkey⟩ := Entries.exists_of_mem hr.current_mem
  refine ⟨key, ?_, hkey⟩
  unfold current?
  rw [hkey]

theorem ne_current (hr : r.Sound) (hid : id ∈ r.expiries) : id ≠ r.current := by
  rintro rfl
  exact hr.current_notMem hid

/-- What is due in a sound ring is decided by the expiries alone, because the key in use has
none. -/
theorem isDue_iff (hr : r.Sound) :
    r.isDue now id = true ↔ ∃ expiry, r.expiries[id]? = some expiry ∧ expiry ≤ now := by
  rw [SignedPreKeyRing.isDue_iff, and_iff_right_iff_imp]
  rintro ⟨expiry, hexpiry, -⟩
  exact hr.ne_current (Entries.mem_of_getElem? hexpiry)

end Sound

end SignedPreKeyRing

end MultiDevice
