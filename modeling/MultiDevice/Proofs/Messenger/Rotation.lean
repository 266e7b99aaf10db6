import MultiDevice.Proofs.Messenger.Publication
import MultiDevice.Proofs.Messenger.Retention

/-!
# What requests do with the signed pre-keys

A rotation takes up a signed pre-key, publishes it and puts it in use. It can fail before, between
and after these steps, and each time the signed pre-keys are as the steps taken left them. No other
request but a cleanup and a fresh start touches them.

## Main definitions

* `Shelf.TakesUp`: a rotation takes up a signed pre-key
* `Shelf.switched`: a signed pre-key is in use and the one before is not scheduled
* `Shelf.Step`: what a request can do with the signed pre-keys

## Main results

* `Messenger.rotate_cases`, `Messenger.rotateIfDue_cases`: how a rotation can end
* `Request.perform_step`: what each request does with the signed pre-keys
* `Scene.sound_run`: the signed pre-keys of a device are sound, whatever was asked of it
-/

namespace MultiDevice

namespace Shelf

variable {k k' : Shelf} {key : SignedPreKey} {id : UInt32}

theorem sound_purged (h : k.ring.Sound) : k.purged.ring.Sound := h.purge k.now

/-- The shelf once a rotation put a key in use and could not schedule the one before. -/
def switched (id : UInt32) (k : Shelf) : Shelf :=
  { k with
    pending := none
    ring := { k.ring with current := id, expiries := k.ring.expiries.erase id } }

theorem sound_switched (h : k.ring.Sound) (hid : id ∈ k.ring.keys) :
    (k.switched id).ring.Sound := h.putInUse hid

theorem sound_promoted (h : k.ring.Sound) (hid : id ∈ k.ring.keys) :
    (k.promoted id).ring.Sound where
  filed := h.filed
  current_mem := hid
  current_notMem hexpiry := by
    obtain ⟨expiry, hexpiry⟩ := Entries.exists_of_mem hexpiry
    exact (promoted_expiry hexpiry).1 rfl
  expiry_mem other hother := by
    obtain ⟨expiry, hexpiry⟩ := Entries.exists_of_mem hother
    rcases (promoted_expiry hexpiry).2 with ⟨-, rfl, -⟩ | hold
    · exact h.current_mem
    · exact h.expiry_mem other (Entries.mem_of_getElem? hold)

/-- A key that was put in use is in use after the cleanup. -/
theorem current?_purged_promoted (hkept : k.ring.keys[key.id]? = some key) :
    (k.promoted key.id).purged.ring.current? = .ok key := by
  have hdue : (k.promoted key.id).ring.isDue k.now key.id = false :=
    SignedPreKeyRing.isDue_current
  have hkept' : (k.promoted key.id).purged.ring.keys[key.id]? = some key :=
    Entries.getElem?_filter_iff.mpr ⟨hkept, (Bool.not_eq_true' _).mpr hdue⟩
  have hcurrent : (k.promoted key.id).purged.ring.current = key.id := rfl
  rw [SignedPreKeyRing.current?, hcurrent, hkept']

/-! ## Taking up a key -/

/-- A rotation takes up a signed pre-key: the one of an unfinished rotation if that is still kept,
else the one made now. It is noted until it is in use. -/
inductive TakesUp (k : Shelf) (key : SignedPreKey) : Shelf → Prop
  /-- The key of an unfinished rotation is taken up again. -/
  | again (hpending : k.pending = some key.id) (hkept : k.ring.keys[key.id]? = some key) :
      TakesUp k key k
  /-- A key is made. -/
  | anew {r : SignedPreKeyRing} {e e' : Entropy} (hnone : k.pending.bind k.ring.get? = none)
      (hcreate : k.ring.create k.now e = .ok (key, r) e') :
      TakesUp k key { k with ring := r, pending := some key.id }

namespace TakesUp

theorem pending (h : k.TakesUp key k') : k'.pending = some key.id := by
  cases h with
  | again hpending => exact hpending
  | anew => rfl

theorem kept (h : k.TakesUp key k') (hr : k.ring.Sound) : k'.ring.keys[key.id]? = some key := by
  cases h with
  | again _ hkept => exact hkept
  | anew _ hcreate => exact (SignedPreKeyRing.create_filed hr.filed hcreate).2.1

theorem sound (h : k.TakesUp key k') (hr : k.ring.Sound) : k'.ring.Sound := by
  cases h with
  | again => exact hr
  | anew _ hcreate => exact hr.create hcreate

theorem mem (h : k.TakesUp key k') (hr : k.ring.Sound) : key.id ∈ k'.ring.keys :=
  Entries.mem_of_getElem? (h.kept hr)

end TakesUp

/-- What a request can do with the signed pre-keys. -/
inductive Step (k : Shelf) : Shelf → Prop
  /-- They stay as they are, maybe at another time. -/
  | stay (now : Time) : Step k { k with now }
  /-- Those that are due are dropped. -/
  | purged : Step k k.purged
  /-- A rotation takes up a key. -/
  | takesUp {k' : Shelf} {key : SignedPreKey} (h : k.TakesUp key k') : Step k k'
  /-- A rotation takes up a key and puts it in use, but cannot schedule the one before. -/
  | switched {k' : Shelf} {key : SignedPreKey} (h : k.TakesUp key k') :
      Step k (k'.switched key.id)
  /-- A rotation takes up a key, puts it in use, and drops what is due. -/
  | promoted {k' : Shelf} {key : SignedPreKey} (h : k.TakesUp key k') :
      Step k (k'.promoted key.id).purged
  /-- The device starts afresh with one key. -/
  | restarted {r : SignedPreKeyRing} {e e' : Entropy}
      (h : SignedPreKeyRing.startingAt k.ring.nextId k.now e = .ok r e') :
      Step k { k with ring := r, pending := none }

/-- Whatever a request does, the signed pre-keys are sound after it. -/
theorem Step.sound (h : k.Step k') (hr : k.ring.Sound) : k'.ring.Sound := by
  cases h with
  | stay now => exact hr
  | purged => exact sound_purged hr
  | takesUp h => exact h.sound hr
  | switched h => exact sound_switched (h.sound hr) (h.mem hr)
  | promoted h => exact sound_purged (sound_promoted (h.sound hr) (h.mem hr))
  | restarted h => exact SignedPreKeyRing.startingAt_sound h

end Shelf

/-! ## How a rotation can end -/

namespace Messenger

variable {s t : Scene} {key : SignedPreKey} {err : Error} {id : UInt32}

/-- The key of an unfinished rotation is taken up again while it is kept. -/
theorem nextSignedPreKey_of_some
    (h : s.messenger.pendingRotation.bind s.messenger.store.signedPreKeys.get? = some key) :
    nextSignedPreKey s = .ok key s := by
  rw [nextSignedPreKey, bind_get, h]
  rfl

theorem nextSignedPreKey_of_none
    (h : s.messenger.pendingRotation.bind s.messenger.store.signedPreKeys.get? = none) :
    nextSignedPreKey s = Action.changeStore (fun store => store.createSignedPreKey s.now) s := by
  rw [nextSignedPreKey, bind_get, h]

/-- A key that a rotation takes up is the one of an unfinished rotation, or it is made now. -/
theorem takesUp_of_next (hfiled : s.Filed) (h : nextSignedPreKey s = .ok key t) :
    s.shelf.TakesUp key (t.setPendingRotation (some key.id)).shelf := by
  cases hkey : s.messenger.pendingRotation.bind s.messenger.store.signedPreKeys.get? with
  | some key' =>
    cases (nextSignedPreKey_of_some hkey).symm.trans h
    obtain ⟨id, hpending, hget⟩ := Option.bind_eq_some_iff.mp hkey
    have hid : key.id = id := hfiled id key hget
    have hshelf : (s.setPendingRotation (some key.id)).shelf = s.shelf := by
      rw [hid, ← hpending]
      rfl
    rw [hshelf]
    exact .again (hid ▸ hpending) (hid ▸ hget)
  | none =>
    rw [nextSignedPreKey_of_none hkey] at h
    obtain ⟨st, e, hc, rfl⟩ := Action.changeStore_eq_ok_iff.mp h
    obtain ⟨⟨key', r⟩, e₁, hcreate, hst⟩ := bind_eq_ok_iff.mp hc
    cases hst
    exact .anew hkey hcreate

theorem shelf_of_next_error (h : nextSignedPreKey s = .error err t) : t.shelf = s.shelf := by
  cases hkey : s.messenger.pendingRotation.bind s.messenger.store.signedPreKeys.get? with
  | some key =>
    cases (nextSignedPreKey_of_some hkey).symm.trans h
  | none =>
    rw [nextSignedPreKey_of_none hkey] at h
    obtain ⟨e, -, rfl⟩ := Action.changeStore_eq_error_iff.mp h
    rfl

/-- When the expiry of the key before cannot be computed, a rotation fails after its key is in
use. -/
theorem exists_finish_error (hid : id ∈ s.shelf.ring.keys) (hne : s.shelf.ring.current ≠ id)
    (hexpire : ¬ s.shelf.CanExpire) :
    ∃ t, finish id s = .error .graceOutOfRange t ∧ t.shelf = s.shelf.switched id := by
  obtain ⟨t, ht, hshelf⟩ := exists_promote hid
  have hnote : (modify fun s => s.setPendingRotation none : Action PUnit) t =
      .ok ⟨⟩ (t.setPendingRotation none) := rfl
  have hshelf' : (t.setPendingRotation none).shelf = s.shelf.switched id := by
    change { t.shelf with pending := none } = _
    rw [hshelf]
    rfl
  have hgrace : (t.setPendingRotation none).now.add?
      (t.setPendingRotation none).messenger.settings.gracePeriod = none := by
    have hexpire' : ¬ (t.setPendingRotation none).shelf.CanExpire := by
      rw [hshelf']
      exact hexpire
    exact Option.not_isSome_iff_eq_none.mp hexpire'
  refine ⟨t.setPendingRotation none, ?_, hshelf'⟩
  rw [finish, bind_of_ok ht, bind_of_ok hnote, if_neg hne]
  refine bind_of_error ?_
  rw [scheduleExpiry, bind_get, hgrace]
  rfl

variable [CipherSuite]

/-- How a rotation can end: no key can be made; the key that it took up is not published; the key is
in use but the expiry of the one before cannot be computed; or it succeeds. -/
theorem rotate_cases (s : Scene) (hr : s.shelf.ring.Sound) :
    (∃ err t, rotate s = .error err t ∧ t.shelf = s.shelf ∧ err.isRetryable = false) ∨
      ∃ key k, answer? nextSignedPreKey s = some key ∧ s.shelf.TakesUp key k ∧
        ((∃ err t, rotate s = .error err t ∧ t.shelf = k) ∨
          (∃ t, rotate s = .error .graceOutOfRange t ∧ t.shelf = k.switched key.id) ∨
          ∃ t, rotate s = .ok key.id t ∧ t.shelf = (k.promoted key.id).purged) := by
  rw [rotate_eq]
  cases hnext : nextSignedPreKey s with
  | error err t =>
    exact .inl ⟨err, t, bind_of_error hnext, shelf_of_next_error hnext,
      nextSignedPreKey_failsForGood _ _ _ hnext⟩
  | ok key u =>
    right
    have htakes := takesUp_of_next hr.filed hnext
    refine ⟨key, (u.setPendingRotation (some key.id)).shelf, answer?_of_ok hnext, htakes, ?_⟩
    have hnote : (modify fun s => s.setPendingRotation (some key.id) : Action PUnit) u =
      .ok ⟨⟩ (u.setPendingRotation (some key.id)) := rfl
    have hleaves := publishWith_leaves Scene.shelf_ignoresTraffic.toIgnoresPublishing key
    rw [bind_of_ok hnext, bind_of_ok hnote]
    cases hpublish : publishWith key (u.setPendingRotation (some key.id)) with
    | error err t => exact .inl ⟨err, t, bind_of_error hpublish, hleaves.eq_of_error hpublish⟩
    | ok _ v =>
      right
      have hshelf := hleaves.eq_of_ok hpublish
      rw [bind_of_ok hpublish, ← hshelf]
      rw [← hshelf] at htakes
      have hsound := htakes.sound hr
      by_cases hexpire : v.shelf.ring.current ≠ key.id → v.shelf.CanExpire
      · exact .inr (exists_finish (htakes.mem hr) hsound.current_mem hexpire)
      · obtain ⟨hne, hexpire⟩ := Classical.not_imp.mp hexpire
        exact .inl (exists_finish_error (htakes.mem hr) hne hexpire)

/-- A rotation that waits for its time does nothing, or rotates. -/
theorem rotateIfDue_cases (s : Scene) (hr : s.shelf.ring.Sound) :
    ∃ current, s.messenger.store.signedPreKeys.current? = .ok current ∧
      if (s.now.since current.createdAt).nanoseconds <
          s.messenger.settings.rotationInterval.nanoseconds then
        rotateIfDue s = .ok none s
      else rotateIfDue s = (some <$> rotate) s := by
  obtain ⟨current, hcurrent, -⟩ := hr.exists_current
  refine ⟨current, hcurrent, ?_⟩
  have hread : Action.ofExcept s.messenger.store.signedPreKeys.current? s = .ok current s :=
    Action.ofExcept_eq_ok_iff.mpr ⟨hcurrent, rfl⟩
  rw [rotateIfDue, bind_get, bind_of_ok hread]
  change if _ then (if _ then pure none else some <$> rotate : Action (Option UInt32)) s = _ else _
  split
  · rfl
  · rfl

theorem rotate_step (s : Scene) (hr : s.shelf.ring.Sound) :
    s.shelf.Step (endState rotate s).shelf := by
  rcases rotate_cases s hr with ⟨err, t, h, hshelf, -⟩ | ⟨key, k, -, htakes, h⟩
  · rw [endState_of_error h, hshelf]
    exact .stay s.now
  · rcases h with ⟨err, t, h, hshelf⟩ | ⟨t, h, hshelf⟩ | ⟨t, h, hshelf⟩
    · rw [endState_of_error h, hshelf]
      exact .takesUp htakes
    · rw [endState_of_error h, hshelf]
      exact .switched htakes
    · rw [endState_of_ok h, hshelf]
      exact .promoted htakes

theorem rotateIfDue_step (s : Scene) (hr : s.shelf.ring.Sound) :
    s.shelf.Step (endState rotateIfDue s).shelf := by
  obtain ⟨current, -, h⟩ := rotateIfDue_cases s hr
  split at h
  · rw [endState_of_ok h]
    exact .stay s.now
  · have hend : endState rotateIfDue s = endState rotate s := by
      rw [← endState_map some rotate s, endState, endState, h]
    rw [hend]
    exact rotate_step s hr

theorem regenerate_step (s : Scene) : s.shelf.Step (endState regenerate s).shelf := by
  rw [regenerate, endState_bind_get]
  cases hc : Action.changeStore (fun store => return ((), ← store.reprovision
      s.messenger.settings.maxOneTimePreKeys s.now)) s with
  | error err t =>
    rw [endState_bind_of_error hc]
    obtain ⟨e, -, rfl⟩ := Action.changeStore_eq_error_iff.mp hc
    exact .stay s.now
  | ok _ t =>
    rw [endState_bind_of_ok hc]
    obtain ⟨st, e, hst, rfl⟩ := Action.changeStore_eq_ok_iff.mp hc
    obtain ⟨st', t, hr, hst⟩ := bind_eq_ok_iff.mp hst
    cases hst
    obtain ⟨ring, e₁, pool, e₂, identity, hring, -, -, rfl⟩ := Store.reprovision_eq_ok_iff.mp hr
    have hleaves := publishBundle_leaves Scene.shelf_ignoresTraffic.toIgnoresPublishing
    rw [endState_bind_of_ok (by rfl), hleaves]
    exact .restarted hring

end Messenger

/-! ## What requests do -/

theorem Provisioned.sound {s : Scene} (h : Provisioned s) : s.shelf.ring.Sound :=
  ⟨h.filed, h.keeps.retains.current_mem, h.keeps.retains.current_notMem,
    h.keeps.retains.expiry_mem⟩

section Requests

variable [CipherSuite]

/-- A request that is neither a rotation nor a fresh start leaves the signed pre-keys as they are,
maybe at another time, or it drops those that are due. -/
theorem Request.shelf_perform_cases (request : Request) (s : Scene) :
    request.isRotation = true ∨ request = .regenerate ∨
      (∃ now, (request.perform s).shelf = { s.shelf with now }) ∨
      (request.perform s).shelf = s.shelf.purged := by
  have hpublishing := Scene.shelf_ignoresTraffic.toIgnoresPublishing
  cases request with
  | encryptFor recipients plaintext allowed =>
    exact .inr (.inr (.inl ⟨s.now,
      Messenger.encryptFor_leaves Scene.shelf_ignoresTraffic recipients plaintext allowed s⟩))
  | decrypt sender envelope =>
    refine .inr (.inr (.inl ⟨s.now, ?_⟩))
    rw [perform, Messenger.decrypt_snd]
    exact Messenger.read_leaves Scene.shelf_ignoresTraffic sender envelope s
  | decideTrust device state => exact .inr (.inr (.inl ⟨s.now, rfl⟩))
  | resetSession device => exact .inr (.inr (.inl ⟨s.now, rfl⟩))
  | publishBundle =>
    exact .inr (.inr (.inl ⟨s.now, Messenger.publishBundle_leaves hpublishing s⟩))
  | publishIfNeeded =>
    exact .inr (.inr (.inl ⟨s.now, Messenger.publishIfNeeded_leaves hpublishing s⟩))
  | purgeDevices =>
    exact .inr (.inr (.inl ⟨s.now, Messenger.purgeDevices_leaves hpublishing.directory s⟩))
  | rotate => exact .inl rfl
  | rotateIfDue => exact .inl rfl
  | prune =>
    obtain ⟨dropped, t, hprune, hshelf⟩ := Messenger.exists_prune s
    refine .inr (.inr (.inr ?_))
    rw [perform, endState_of_ok hprune, hshelf]
  | regenerate => exact .inr (.inl rfl)
  | surroundings directory now entropy => exact .inr (.inr (.inl ⟨now, rfl⟩))

/-- What each request does with the signed pre-keys. -/
theorem Request.perform_step (request : Request) {s : Scene} (hr : s.shelf.ring.Sound) :
    s.shelf.Step (request.perform s).shelf := by
  rcases request.shelf_perform_cases s with hrotation | rfl | ⟨now, hshelf⟩ | hshelf
  · cases request with
    | rotate => exact Messenger.rotate_step s hr
    | rotateIfDue => exact Messenger.rotateIfDue_step s hr
    | _ => cases hrotation
  · exact Messenger.regenerate_step s
  · rw [hshelf]
    exact .stay now
  · rw [hshelf]
    exact .purged

/-- **The signed pre-keys of a device are sound**, whatever was asked of it. -/
theorem Scene.sound_run {start : Scene} (hstart : Provisioned start) (requests : List Request) :
    (start.run requests).shelf.ring.Sound :=
  Scene.run_induction (p := fun s => s.shelf.ring.Sound)
    (fun request _ hs => (request.perform_step hs).sound hs) hstart.sound requests

end Requests

end MultiDevice
