import MultiDevice.Messenger.Rotation
import MultiDevice.Proofs.Action
import MultiDevice.Proofs.Key.PreKeys

/-!
# What publishing and rotating leave alone

Publishing, rotating and pruning are upkeep: they change the pre-keys of a device, what it notes
about them, the directory and the randomness. Whatever part of a scene does not depend on these is
the same after upkeep as before, whether it succeeds or fails.

## Main definitions

* `IgnoresUpkeep`: parts of a scene that do not depend on what upkeep changes
* `IgnoresPublishing`: parts of a scene that do not depend on what publishing changes
* `OutsideStore`: parts of a scene that do not depend on what a device keeps for itself
* `Messenger.finish`: what a rotation does once its bundle is published

## Main results

* `publishBundle_leaves`, `publishIfNeeded_leaves`, `purgeDevices_leaves`: publishing
* `rotate_leaves`, `rotateIfDue_leaves`, `prune_leaves`: rotating
-/

namespace MultiDevice

/-- The part `view` of a scene does not depend on the pre-keys, the notes about them, the directory
and the randomness. -/
structure IgnoresUpkeep {γ : Type} (view : Scene → γ) : Prop where
  preKeys : ∀ s signedPreKeys oneTimePreKeys,
    view (s.setStore { s.messenger.store with signedPreKeys, oneTimePreKeys }) = view s
  needsPublishing : ∀ s b, view (s.setNeedsPublishing b) = view s
  pendingRotation : ∀ s id, view (s.setPendingRotation id) = view s
  directory : ∀ s d, view (s.setDirectory d) = view s
  entropy : ∀ s e, view { s with entropy := e } = view s

/-- The part `view` of a scene does not depend on the one-time pre-keys, the note whether the bundle
has to be published, the directory and the randomness. -/
structure IgnoresPublishing {γ : Type} (view : Scene → γ) : Prop where
  oneTimePreKeys : ∀ s oneTimePreKeys,
    view (s.setStore { s.messenger.store with oneTimePreKeys }) = view s
  needsPublishing : ∀ s b, view (s.setNeedsPublishing b) = view s
  directory : ∀ s d, view (s.setDirectory d) = view s
  entropy : ∀ s e, view { s with entropy := e } = view s

/-- The part `view` of a scene does not depend on what a device keeps for itself and the
randomness. -/
structure OutsideStore {γ : Type} (view : Scene → γ) : Prop where
  store : ∀ s store, view (s.setStore store) = view s
  pendingRotation : ∀ s id, view (s.setPendingRotation id) = view s
  entropy : ∀ s e, view { s with entropy := e } = view s

/-- Publishing is upkeep. -/
theorem IgnoresUpkeep.publishing {γ : Type} {view : Scene → γ} (hv : IgnoresUpkeep view) :
    IgnoresPublishing view :=
  ⟨fun s _ => hv.preKeys s s.messenger.store.signedPreKeys _, hv.needsPublishing, hv.directory,
    hv.entropy⟩

namespace Messenger

variable {γ : Type} {view : Scene → γ}

/-! ## Publishing -/

theorem fillPool_leaves
    (hp : ∀ s oneTimePreKeys, view (s.setStore { s.messenger.store with oneTimePreKeys }) = view s)
    (he : ∀ s e, view { s with entropy := e } = view s) : Leaves view fillPool := by
  refine Leaves.get.bind fun s => ?_
  refine Leaves.ite ?_ (Leaves.pure _)
  refine Leaves.bind (Leaves.onStore _ ?_) fun _ => Leaves.pure _
  rintro s st e ⟨e', rfl⟩
  rw [Store.endState_replenish, he]
  exact hp s _

theorem publishDevices_leaves (hd : ∀ s d, view (s.setDirectory d) = view s)
    (devices : List Advertisement) : Leaves view (publishDevices devices) := by
  refine Leaves.get.bind fun s => (Leaves.ofExcept _).bind fun d => ?_
  exact Leaves.modify fun s => hd s d

theorem ensureListed_leaves (hd : ∀ s d, view (s.setDirectory d) = view s) :
    Leaves view ensureListed := by
  refine Leaves.get.bind fun s => (Leaves.ofExcept _).bind fun devices => ?_
  exact Leaves.ite (Leaves.pure _) (publishDevices_leaves hd _)

theorem purgeDevices_leaves (hd : ∀ s d, view (s.setDirectory d) = view s) :
    Leaves view purgeDevices :=
  Leaves.get.bind fun _ => publishDevices_leaves hd _

theorem submitBundle_leaves (hn : ∀ s b, view (s.setNeedsPublishing b) = view s)
    (hd : ∀ s d, view (s.setDirectory d) = view s) (bundle : DeviceBundle) :
    Leaves view (submitBundle bundle) := by
  intro s
  cases h : s.directory.publishBundle s.messenger.address bundle with
  | ok d =>
    have hs : endState (submitBundle bundle) s = (s.setNeedsPublishing false).setDirectory d := by
      rw [submitBundle, endState_bind_get, h]
      rfl
    rw [hs, hd, hn]
  | error err =>
    have hs : endState (submitBundle bundle) s = s.setNeedsPublishing true := by
      rw [submitBundle, endState_bind_get, h]
      rfl
    rw [hs, hn]

variable [CipherSuite]

theorem publishWith_leaves (hv : IgnoresPublishing view) (signed : SignedPreKey) :
    Leaves view (publishWith signed) := by
  refine (fillPool_leaves hv.oneTimePreKeys hv.entropy).bind fun _ => Leaves.get.bind fun s => ?_
  exact (submitBundle_leaves hv.needsPublishing hv.directory _).bind fun _ =>
    ensureListed_leaves hv.directory

/-- Publishing changes nothing but one-time pre-keys, notes, directory and randomness. -/
theorem publishBundle_leaves (hv : IgnoresPublishing view) : Leaves view publishBundle :=
  Leaves.get.bind fun _ => (Leaves.ofExcept _).bind fun _ => publishWith_leaves hv _

theorem publishIfNeeded_leaves (hv : IgnoresPublishing view) : Leaves view publishIfNeeded := by
  refine Leaves.get.bind fun s => Leaves.ite ?_ (Leaves.pure _)
  exact (publishBundle_leaves hv).bind fun _ => Leaves.pure _

/-! ## Rotating -/

omit [CipherSuite]

/-- A change of the store that only concerns the signed pre-keys is upkeep. -/
theorem changeStore_leaves {α : Type} (hv : IgnoresUpkeep view) (f : Store → Draw (α × Store))
    (hf : ∀ s a st e e', f s e = .ok (a, st) e' →
      st = { s with signedPreKeys := st.signedPreKeys }) :
    Leaves view (Action.changeStore f) := by
  refine Leaves.changeStore f hv.entropy fun s a st e e' h => ?_
  rw [hf _ _ _ _ _ h]
  exact hv.preKeys s _ _

theorem nextSignedPreKey_leaves (hv : IgnoresUpkeep view) : Leaves view nextSignedPreKey := by
  refine Leaves.get.bind fun s => ?_
  split
  · exact Leaves.pure _
  · refine changeStore_leaves hv _ fun s a st e e' h => ?_
    obtain ⟨k, t, -, h⟩ := bind_eq_ok_iff.mp h
    cases h
    rfl

theorem promote_leaves (hv : IgnoresUpkeep view) (id : UInt32) : Leaves view (promote id) := by
  refine changeStore_leaves hv _ fun s a st e e' h => ?_
  simp only [Store.promoteSignedPreKey] at h
  cases hp : s.signedPreKeys.promote id <;> rw [hp] at h <;> cases h
  rfl

theorem scheduleExpiry_leaves (hv : IgnoresUpkeep view) (id : UInt32) :
    Leaves view (scheduleExpiry id) := by
  refine Leaves.get.bind fun s => ?_
  split
  · exact Leaves.throw _
  · refine changeStore_leaves hv _ fun s a st e e' h => ?_
    obtain ⟨k, t, hk, h⟩ := bind_eq_ok_iff.mp h
    cases h
    simp only [Store.expireSignedPreKey] at hk
    cases hp : s.signedPreKeys.expire id _ <;> rw [hp] at hk <;> cases hk
    rfl

theorem prune_leaves (hv : IgnoresUpkeep view) : Leaves view prune := by
  refine Leaves.get.bind fun s => changeStore_leaves hv _ fun s a st e e' h => ?_
  cases h
  rfl

/-- What a rotation does once its bundle is published: it puts the new key in use, and schedules
that the one before is dropped. -/
def finish (id : UInt32) : Action UInt32 := do
  let previous ← promote id
  modify fun s => s.setPendingRotation none
  match previous with
  | some id => scheduleExpiry id
  | none => pure ()
  let _ ← prune
  return id

theorem finish_leaves (hv : IgnoresUpkeep view) (id : UInt32) : Leaves view (finish id) := by
  refine (promote_leaves hv _).bind fun previous => ?_
  refine (Leaves.modify fun s => hv.pendingRotation s _).bind fun _ => ?_
  have pruned : Leaves view (prune >>= fun _ => (pure id : Action UInt32)) :=
    (prune_leaves hv).bind fun _ => Leaves.pure _
  cases previous with
  | some id => exact (scheduleExpiry_leaves hv id).bind fun _ => pruned
  | none => exact pruned

variable [CipherSuite]

/-- A rotation publishes a bundle with the next key, and then finishes. -/
theorem rotate_eq : rotate = (do
    let next ← nextSignedPreKey
    modify fun s => s.setPendingRotation (some next.id)
    publishWith next
    finish next.id) := rfl

/-- Rotating changes nothing but pre-keys, notes, directory and randomness. -/
theorem rotate_leaves (hv : IgnoresUpkeep view) : Leaves view rotate := by
  rw [rotate_eq]
  refine (nextSignedPreKey_leaves hv).bind fun next => ?_
  refine (Leaves.modify fun s => hv.pendingRotation s _).bind fun _ => ?_
  exact (publishWith_leaves hv.publishing next).bind fun _ => finish_leaves hv _

theorem rotateIfDue_leaves (hv : IgnoresUpkeep view) : Leaves view rotateIfDue := by
  refine Leaves.get.bind fun s => (Leaves.ofExcept _).bind fun current => ?_
  exact Leaves.ite (Leaves.pure _) ((rotate_leaves hv).map _)

end Messenger

/-! ## Outside of the store -/

namespace OutsideStore

variable {γ : Type} {view : Scene → γ}

theorem changeStore {α : Type} (hv : OutsideStore view) (f : Store → Draw (α × Store)) :
    Leaves view (Action.changeStore f) :=
  Leaves.changeStore f hv.entropy fun s _ st _ _ _ => hv.store s st

theorem fillPool (hv : OutsideStore view) : Leaves view Messenger.fillPool :=
  Messenger.fillPool_leaves (fun s _ => hv.store s _) hv.entropy

theorem nextSignedPreKey (hv : OutsideStore view) : Leaves view Messenger.nextSignedPreKey := by
  refine Leaves.get.bind fun s => ?_
  split
  · exact Leaves.pure _
  · exact hv.changeStore _

/-- What a rotation does once its bundle is published only concerns the store. -/
theorem finish (hv : OutsideStore view) (id : UInt32) : Leaves view (Messenger.finish id) := by
  refine (hv.changeStore _).bind fun previous => ?_
  refine (Leaves.modify fun s => hv.pendingRotation s _).bind fun _ => ?_
  have pruned : Leaves view (Messenger.prune >>= fun _ => (pure id : Action UInt32)) :=
    Leaves.bind (Leaves.get.bind fun s => hv.changeStore _) fun _ => Leaves.pure _
  cases previous with
  | none => exact pruned
  | some superseded =>
    refine Leaves.bind (Leaves.get.bind fun s => ?_) fun _ => pruned
    split
    · exact Leaves.throw _
    · exact hv.changeStore _

end OutsideStore

end MultiDevice
