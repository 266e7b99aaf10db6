import MultiDevice.Proofs.Key.PreKeys
import MultiDevice.Proofs.Messenger.Outcome

/-!
# Randomness is used in one direction

Whatever is asked of a messenger, its source of randomness is the same afterwards, used at least as
far as before. What one request drew is therefore not drawn again by a later one.

## Main definitions

* `Action.Advances`: actions that only use up the source
* `Scene.Flows`: runs around which the source is only used up too

## Main results

* `Request.perform_later`: every request only uses up the source
* `Scene.Flows.later`: so does every run
-/

namespace MultiDevice

/-- An action that uses up the source of randomness and changes nothing else about it. -/
def Action.Advances {α : Type} (x : Action α) : Prop :=
  ∀ s, Entropy.Later s.entropy (endState x s).entropy

namespace Action.Advances

variable {α β : Type}

/-- An action that leaves the source alone. -/
theorem of_leaves {x : Action α} (hx : Leaves Scene.entropy x) : Advances x := by
  intro s
  rw [hx s]
  exact Entropy.Later.refl _

protected theorem pure (a : α) : Advances (pure a) := of_leaves (Leaves.pure a)

protected theorem throw (err : Error) : Advances (throw err : Action α) :=
  of_leaves (Leaves.throw err)

theorem bind {x : Action α} {f : α → Action β} (hx : Advances x) (hf : ∀ a, Advances (f a)) :
    Advances (x >>= f) := by
  intro s
  exact endState_bind_induction (p := fun t => Entropy.Later s.entropy t.entropy) (hx s)
    fun a t _ ht => ht.trans (hf a t)

theorem get_bind {f : Scene → Action β} (hf : ∀ s, Advances (f s)) : Advances (get >>= f) :=
  (of_leaves Leaves.get).bind hf

theorem ofExcept (x : Except Error α) : Advances (Action.ofExcept x) := of_leaves (.ofExcept x)

theorem modify {f : Scene → Scene} (hf : ∀ s, (f s).entropy = s.entropy) :
    Advances (modify f : Action PUnit) := of_leaves (Leaves.modify hf)

theorem draw {x : Draw α} (hx : Draw.Advances x) : Advances (Action.draw x) := by
  intro s
  unfold endState Action.draw
  cases h : x s.entropy with
  | ok a e => exact hx.of_ok h
  | error err e => exact hx.of_error h

theorem changeStore {f : Store → Draw (α × Store)} (hf : ∀ st, Draw.Advances (f st)) :
    Advances (Action.changeStore f) := by
  refine get_bind fun s => (draw (hf _)).bind ?_
  rintro ⟨a, st⟩
  exact (modify fun _ => rfl).bind fun _ => .pure a

end Action.Advances

open MultiDevice.Action (Advances)

namespace Messenger

/-! ## Upkeep -/

theorem fillPool_advances : Advances fillPool := by
  have hreplenish : ∀ target, Advances (Action.onStore (Store.replenish target)) := by
    intro target s
    have hlater := OneTimePreKeyPool.replenish_later target s.messenger.store.oneTimePreKeys
      s.entropy
    unfold endState Action.onStore Store.replenish
    cases h : OneTimePreKeyPool.replenish target (s.messenger.store.oneTimePreKeys, s.entropy) with
    | ok added t =>
      rw [endState_of_ok h] at hlater
      simp only [h]
      exact hlater
    | error err t =>
      rw [endState_of_error h] at hlater
      simp only [h]
      exact hlater
  refine Advances.get_bind fun s => ?_
  dsimp only
  split
  · exact (hreplenish _).bind fun _ => .pure _
  · exact .pure _

theorem prune_advances : Advances prune :=
  Advances.get_bind fun _ => .changeStore fun _ => Draw.Advances.pure _

variable [CipherSuite]

theorem publishWith_advances (signed : SignedPreKey) : Advances (publishWith signed) := by
  refine fillPool_advances.bind fun _ => Advances.get_bind fun s => ?_
  refine (Advances.of_leaves (submitBundle_leaves (fun _ _ => rfl) (fun _ _ => rfl) _)).bind
    fun _ => ?_
  exact .of_leaves (ensureListed_leaves fun _ _ => rfl)

theorem publishBundle_advances : Advances publishBundle :=
  Advances.get_bind fun _ => (Advances.ofExcept _).bind fun _ => publishWith_advances _

theorem publishIfNeeded_advances : Advances publishIfNeeded := by
  refine Advances.get_bind fun s => ?_
  split
  · exact publishBundle_advances.bind fun _ => .pure _
  · exact .pure _

theorem rotate_advances : Advances rotate := by
  have hnext : Advances nextSignedPreKey := by
    refine Advances.get_bind fun s => ?_
    split
    · exact .pure _
    · exact .changeStore fun st => st.createSignedPreKey_advances _
  have hnote : ∀ id, Advances (modify fun s => s.setPendingRotation id : Action PUnit) :=
    fun id => .modify fun _ => rfl
  have hpromote : ∀ id, Advances (promote id) := fun id =>
    .changeStore fun _ => Draw.Advances.ofExcept _
  have hexpire : ∀ id, Advances (scheduleExpiry id) := by
    intro id
    refine Advances.get_bind fun s => ?_
    split
    · exact .throw _
    · exact .changeStore fun _ => (Draw.Advances.ofExcept _).bind fun _ => Draw.Advances.pure _
  refine hnext.bind fun next => (hnote _).bind fun _ => (publishWith_advances next).bind fun _ => ?_
  refine (hpromote _).bind fun previous => (hnote none).bind fun _ => ?_
  cases previous with
  | some id => exact (hexpire id).bind fun _ => prune_advances.bind fun _ => .pure _
  | none => exact prune_advances.bind fun _ => .pure _

theorem rotateIfDue_advances : Advances rotateIfDue := by
  refine Advances.get_bind fun s => (Advances.ofExcept _).bind fun current => ?_
  dsimp only
  split
  · exact .pure _
  · exact rotate_advances.bind fun _ => .pure _

theorem regenerate_advances : Advances regenerate := by
  refine Advances.get_bind fun s => Advances.bind (.changeStore fun st => ?_) fun _ => ?_
  · exact (st.reprovision_advances _ _).bind fun _ => Draw.Advances.pure _
  · exact Advances.bind (.modify fun _ => rfl) fun _ => publishBundle_advances

/-! ## Encrypting and reading -/

theorem wrapFor_advances (key : ContentKey) (device : DeviceAddress) :
    Advances (wrapFor key device) := by
  refine Advances.bind (.of_leaves (bundleFor_leaves (fun _ _ => rfl) (fun _ _ => rfl) _))
    fun bundle => Advances.get_bind fun s => ?_
  exact .changeStore fun st => KeyWrap.wrap_advances _ st device bundle key

theorem prepare_advances (recipients : List Account) (plaintext : Bytes) (allowed : DeviceSet) :
    Advances (prepare recipients plaintext allowed) := by
  refine Advances.get_bind fun s => (Advances.ofExcept _).bind fun devices => ?_
  refine (Advances.ofExcept _).bind fun verdict => ?_
  refine (Advances.draw ContentKey.generate_advances).bind fun key => ?_
  exact (Advances.draw (key.encrypt_advances _ _)).bind fun _ => .pure _

theorem wrapAll_advances (key : ContentKey) (devices : List DeviceAddress) :
    Advances (wrapAll key devices) := fun s =>
  wrapAll_preserves (p := fun t => Entropy.Later s.entropy t.entropy)
    (fun key device t ht => ht.trans (wrapFor_advances key device t)) key devices (.refl _)

theorem encryptFor_advances (recipients : List Account) (plaintext : Bytes)
    (allowed : DeviceSet) : Advances (encryptFor recipients plaintext allowed) := by
  rw [encryptFor_eq]
  refine Advances.get_bind fun s => (prepare_advances _ _ _).bind ?_
  rintro ⟨verdict, key, payload⟩
  exact (wrapAll_advances key _).bind fun _ => .pure _

omit [CipherSuite] in
theorem noteIdentity_advances (device : DeviceAddress) (identity : PublicKey) :
    Advances (noteIdentity device identity) := by
  intro s
  have hleaves : Leaves Scene.entropy (observeIdentity device identity) :=
    observeIdentity_leaves (fun _ _ => rfl) device identity
  rw [endState_of_ok (noteIdentity_eq_ok device identity s), hleaves s]
  exact Entropy.Later.refl _

theorem unwrapFrom_advances (sender : DeviceAddress) (transport : KeyTransport) :
    Advances (unwrapFrom sender transport) := by
  have hunwrap : Advances (unwrap sender transport) :=
    Advances.get_bind fun s => .changeStore fun st => KeyWrap.unwrap_advances _ st sender transport
  refine hunwrap.bind fun unwrapped => ?_
  split
  · exact Advances.bind (.modify fun _ => rfl) fun _ => .pure _
  · exact .pure _

theorem read_advances (sender : DeviceAddress) (envelope : Envelope) :
    Advances (read sender envelope) := by
  unfold read
  split
  · refine Advances.get_bind fun s => ?_
    split
    · exact .pure _
    · refine (unwrapFrom_advances _ _).bind fun u => (noteIdentity_advances _ _).bind fun _ => ?_
      exact (Advances.ofExcept _).bind fun _ => Advances.get_bind fun _ => .pure _
  · exact .throw _

end Messenger

/-! ## Runs -/

variable [CipherSuite]

/-- A change of the surroundings only uses up the source. -/
def Scene.FlowsAt (s : Scene) : Request → Prop
  | .surroundings _ _ entropy => Entropy.Later s.entropy entropy
  | _ => True

/-- Every request only uses up the source. -/
theorem Request.perform_later {s : Scene} {request : Request} (h : s.FlowsAt request) :
    Entropy.Later s.entropy (request.perform s).entropy := by
  cases request with
  | encryptFor recipients plaintext allowed => exact Messenger.encryptFor_advances _ _ _ s
  | decrypt sender envelope =>
    rw [perform, Messenger.decrypt_snd]
    exact Messenger.read_advances sender envelope s
  | decideTrust device state => exact Entropy.Later.refl _
  | resetSession device => exact Entropy.Later.refl _
  | publishBundle => exact Messenger.publishBundle_advances s
  | publishIfNeeded => exact Messenger.publishIfNeeded_advances s
  | purgeDevices => exact Advances.of_leaves (Messenger.purgeDevices_leaves fun _ _ => rfl) s
  | rotate => exact Messenger.rotate_advances s
  | rotateIfDue => exact Messenger.rotateIfDue_advances s
  | prune => exact Messenger.prune_advances s
  | regenerate => exact Messenger.regenerate_advances s
  | surroundings directory now entropy => exact h

/-- Nothing around the messenger does anything to the source but use it up. -/
def Scene.Flows : Scene → List Request → Prop
  | _, [] => True
  | s, request :: requests => s.FlowsAt request ∧ (request.perform s).Flows requests

theorem Scene.Flows.later {s : Scene} {requests : List Request} (h : s.Flows requests) :
    Entropy.Later s.entropy (s.run requests).entropy := by
  induction requests generalizing s with
  | nil => exact Entropy.Later.refl _
  | cons request requests ih => exact (Request.perform_later h.1).trans (ih h.2)

end MultiDevice
