import Mathlib.Logic.Relation
import MultiDevice.Proofs.Messenger.FailedRotation

/-!
# What upkeep is made of

Publishing, rotating, pruning and starting afresh are sequences of a few things that can be done to
a scene, whether they succeed or stop halfway. What each of these chores keeps, upkeep keeps.

## Main definitions

* `Chore`: one thing that upkeep does to a scene
* `Chores`: a sequence of such things
* `Restart`: a device that starts afresh
* `Request.IsUpkeep`: the requests that are upkeep

## Main results

* `Messenger.rotate_chores` and its siblings: what upkeep does, step by step
* `Request.perform_chores`: upkeep is a sequence of chores, possibly after the device started afresh
* `Chores.induction`: what every chore keeps, upkeep keeps
-/

namespace MultiDevice

/-- The scene after its pool was filled up, as far as there is randomness. -/
def Scene.refill (target : Nat) (s : Scene) : Scene :=
  let t :=
    endState (OneTimePreKeyPool.replenish target) (s.messenger.store.oneTimePreKeys, s.entropy)
  { s.setStore { s.messenger.store with oneTimePreKeys := t.1 } with entropy := t.2 }

theorem Scene.endState_refill (target : Nat) (s : Scene) :
    endState (Action.onStore (Store.replenish target)) s = s.refill target := by
  cases h : OneTimePreKeyPool.replenish target (s.messenger.store.oneTimePreKeys, s.entropy) with
  | ok added t => simp only [refill, endState, Action.onStore, Store.replenish, h]
  | error err t => simp only [refill, endState, Action.onStore, Store.replenish, h]

/-- A signed pre-key is kept, and is in use or to be put in use. -/
structure Scene.Chooses (signed : SignedPreKey) (s : Scene) : Prop where
  kept : s.messenger.store.signedPreKeys.keys[signed.id]? = some signed
  used : s.messenger.store.signedPreKeys.current = signed.id ∨
    s.messenger.pendingRotation = some signed.id

variable [CipherSuite]

/-- One thing that upkeep does to a scene. -/
inductive Chore (s : Scene) : Scene → Prop where
  /-- Randomness is used for nothing. -/
  | waste (e : Entropy) (h : Entropy.Later s.entropy e) : Chore s { s with entropy := e }
  /-- The pool is filled up, as far as there is randomness. -/
  | fill (target : Nat) : Chore s (s.refill target)
  /-- A bundle with a signed pre-key that is chosen is published. -/
  | publish (signed : SignedPreKey) (d : Directory) (hchosen : s.Chooses signed)
      (h : s.directory.publishBundle s.messenger.address
        (Messenger.bundle s.messenger.store signed) = .ok d) :
      Chore s ((s.setNeedsPublishing false).setDirectory d)
  /-- A bundle is refused. -/
  | refuse : Chore s (s.setNeedsPublishing true)
  /-- The device list of the account is published. -/
  | list (devices : List Advertisement) (d : Directory)
      (h : s.directory.publishDeviceList s.messenger.address.account devices = .ok d) :
      Chore s (s.setDirectory d)
  /-- A signed pre-key is made and noted as the one to be put in use, when none is kept for that. -/
  | create (key : SignedPreKey) (r : SignedPreKeyRing) (e : Entropy)
      (hnone : s.messenger.pendingRotation.bind s.messenger.store.signedPreKeys.get? = none)
      (h : s.messenger.store.signedPreKeys.create s.now s.entropy = .ok (key, r) e) :
      Chore s (({ s.setStore { s.messenger.store with signedPreKeys := r } with
        entropy := e } : Scene).setPendingRotation (some key.id))
  /-- The signed pre-key of the bundle published is put in use. -/
  | promote (b : DeviceBundle) (previous : Option UInt32) (r : SignedPreKeyRing)
      (hb : s.directory.bundles[s.messenger.address]? = some b)
      (h : s.messenger.store.signedPreKeys.promote b.signedPreKey.id = .ok (previous, r)) :
      Chore s ((s.setStore { s.messenger.store with signedPreKeys := r }).setPendingRotation none)
  /-- A superseded signed pre-key is scheduled to be dropped when no rotation is unfinished. -/
  | expire (id : UInt32) (expiry : Time) (r : SignedPreKeyRing)
      (hpending : s.messenger.pendingRotation = none)
      (h : s.messenger.store.signedPreKeys.expire id expiry = .ok r) :
      Chore s (s.setStore { s.messenger.store with signedPreKeys := r })
  /-- The signed pre-keys whose time has come are dropped. -/
  | purge : Chore s (s.setStore (s.messenger.store.purgeSignedPreKeys s.now).2)

/-- A sequence of chores. -/
abbrev Chores : Scene → Scene → Prop := Relation.ReflTransGen Chore

/-- The device starts afresh, with nothing published yet. -/
def Restart (s t : Scene) : Prop :=
  ∃ st e, s.messenger.store.reprovision s.messenger.settings.maxOneTimePreKeys s.now s.entropy =
      .ok st e ∧
    t = (({ s.setStore st with entropy := e } : Scene).setPendingRotation
      none).setNeedsPublishing true

/-- What every chore keeps, upkeep keeps. -/
theorem Chores.induction {p : Scene → Prop} {base s : Scene} (h : Chores base s)
    (step : ∀ s t, Chore s t → p s → p t) (hbase : p base) : p s := by
  induction h with
  | refl => exact hbase
  | tail _ hchore ih => exact step _ _ hchore ih

/-- A signed pre-key is chosen, and the bundle published with it. -/
def Scene.Announces (signed : SignedPreKey) (s : Scene) : Prop :=
  s.Chooses signed ∧ ∃ b, s.directory.bundles[s.messenger.address]? = some b ∧
    b.signedPreKey.id = signed.id

namespace Messenger

variable {base : Scene} {signed : SignedPreKey} {q : Scene → Prop}

/-! ## Publishing -/

theorem fillPool_chores :
    Ensures (fun s => Chores base s ∧ s.Chooses signed) fillPool
      (fun _ s => Chores base s ∧ s.Chooses signed) (Chores base) := by
  refine Ensures.get_bind fun s hs => ?_
  dsimp only
  split
  · have hfill : Ensures (fun t => t = s)
        (Action.onStore (Store.replenish s.messenger.settings.maxOneTimePreKeys))
        (fun _ s => Chores base s ∧ s.Chooses signed) (Chores base) := by
      intro t ht
      subst ht
      have hend : Chores base (t.refill t.messenger.settings.maxOneTimePreKeys) ∧
          (t.refill t.messenger.settings.maxOneTimePreKeys).Chooses signed :=
        ⟨hs.1.tail (.fill _), hs.2.kept, hs.2.used⟩
      rw [← Scene.endState_refill] at hend
      cases h : Action.onStore (Store.replenish t.messenger.settings.maxOneTimePreKeys) t with
      | ok added t' =>
        rw [endState_of_ok h] at hend
        exact hend
      | error err t' =>
        rw [endState_of_error h] at hend
        exact hend.1
    exact hfill.bind fun _ => Ensures.pure fun _ h => h
  · rintro t rfl
    exact hs

theorem submitBundle_chores {s : Scene} (hs : Chores base s) (hchosen : s.Chooses signed) :
    Ensures (fun t => t = s) (submitBundle (bundle s.messenger.store signed))
      (fun _ s => Chores base s ∧ s.Announces signed) (Chores base) := by
  refine Ensures.get_bind fun t ht => ?_
  subst ht
  cases h : t.directory.publishBundle t.messenger.address (bundle t.messenger.store signed) with
  | error err =>
    rintro t rfl
    exact hs.tail .refuse
  | ok d =>
    rintro t rfl
    refine ⟨hs.tail (.publish signed d hchosen h), ⟨hchosen.kept, hchosen.used⟩, ?_⟩
    unfold Directory.publishBundle at h
    split at h
    · cases h
    · cases h
      exact ⟨_, Std.ExtTreeMap.getElem?_insert_self, rfl⟩

omit [CipherSuite] in
theorem bundles_of_publishDeviceList {d d' : Directory} {account : Account}
    {devices : List Advertisement} (h : d.publishDeviceList account devices = .ok d') :
    d'.bundles = d.bundles ∧ d'.publications = d.publications := by
  unfold Directory.publishDeviceList at h
  split at h
  · cases h
  · cases h
    exact ⟨rfl, rfl⟩

/-- Publishing a device list keeps what does not depend on device lists. -/
theorem publishDevices_chores
    (hq : ∀ (s : Scene) d, d.bundles = s.directory.bundles → q s → q (s.setDirectory d))
    (devices : List Advertisement) :
    Ensures (fun s => Chores base s ∧ q s) (publishDevices devices)
      (fun _ s => Chores base s ∧ q s) (Chores base) := by
  refine Ensures.get_bind fun s hs => ?_
  have hlist : Ensures (fun t => t = s) (Action.ofExcept
      (s.directory.publishDeviceList s.messenger.address.account devices))
      (fun d t => t = s ∧ s.directory.publishDeviceList s.messenger.address.account devices = .ok d)
      (Chores base) := Ensures.ofExcept (fun d t hd ht => ⟨ht, hd⟩) fun t ht => ht ▸ hs.1
  refine hlist.bind fun d => Ensures.modify ?_
  rintro t ⟨rfl, hd⟩
  exact ⟨hs.1.tail (.list devices d hd), hq t d (bundles_of_publishDeviceList hd).1 hs.2⟩

theorem ensureListed_chores
    (hq : ∀ (s : Scene) d, d.bundles = s.directory.bundles → q s → q (s.setDirectory d)) :
    Ensures (fun s => Chores base s ∧ q s) ensureListed (fun _ s => Chores base s ∧ q s)
      (Chores base) := by
  refine Ensures.get_bind fun s hs => ?_
  have hlookup : Ensures (fun t => t = s)
      (Action.ofExcept (s.directory.listDevices s.messenger.address.account))
      (fun _ s => Chores base s ∧ q s) (Chores base) :=
    Ensures.ofExcept (fun _ t _ ht => ht ▸ hs) fun t ht => ht ▸ hs.1
  refine hlookup.bind fun devices => ?_
  split
  · exact Ensures.pure fun _ ht => ht
  · exact publishDevices_chores hq _

theorem purgeDevices_chores :
    Ensures (Chores base) purgeDevices (fun _ => Chores base) (Chores base) := by
  refine Ensures.get_bind fun s hs => ?_
  refine ((publishDevices_chores (q := fun _ => True) (fun _ _ _ _ => trivial) _).weaken
    fun t ht => ⟨ht ▸ hs, trivial⟩).mono (fun _ t ht => ht.1) fun t ht => ht

/-- A bundle is published with a signed pre-key that is chosen. -/
theorem publishWith_chores (signed : SignedPreKey) :
    Ensures (fun s => Chores base s ∧ s.Chooses signed) (publishWith signed)
      (fun _ s => Chores base s ∧ s.Announces signed) (Chores base) := by
  refine fillPool_chores.bind fun _ => Ensures.get_bind fun s hs => ?_
  refine (submitBundle_chores hs.1 hs.2).bind fun _ => ensureListed_chores ?_
  rintro t d hd ⟨hchosen, b, hb, hid⟩
  exact ⟨⟨hchosen.kept, hchosen.used⟩, b, hd ▸ hb, hid⟩

omit [CipherSuite] in
/-- The signed pre-key in use is chosen when keys are kept under their own numbers. -/
theorem current_chosen {s : Scene} (hfiled : s.Filed) {signed : SignedPreKey}
    (h : s.messenger.store.signedPreKeys.current? = .ok signed) : s.Chooses signed := by
  unfold SignedPreKeyRing.current? at h
  cases hc : s.messenger.store.signedPreKeys.keys[s.messenger.store.signedPreKeys.current]? with
  | none =>
    rw [hc] at h
    cases h
  | some key =>
    rw [hc] at h
    cases h
    have hid := hfiled _ signed hc
    refine ⟨?_, .inl hid.symm⟩
    rw [hid]
    exact hc

theorem publishBundle_chores :
    Ensures (fun s => Chores base s ∧ s.Filed) publishBundle (fun _ => Chores base)
      (Chores base) := by
  refine Ensures.get_bind fun s hs => ?_
  have hcurrent : Ensures (fun t => t = s)
      (Action.ofExcept s.messenger.store.signedPreKeys.current?)
      (fun signed s => Chores base s ∧ s.Chooses signed) (Chores base) := by
    refine Ensures.ofExcept (fun signed t h ht => ?_) fun t ht => ht ▸ hs.1
    subst ht
    exact ⟨hs.1, current_chosen hs.2 h⟩
  exact hcurrent.bind fun signed => (publishWith_chores signed).mono (fun _ _ ht => ht.1)
    fun _ ht => ht

theorem publishIfNeeded_chores :
    Ensures (fun s => Chores base s ∧ s.Filed) publishIfNeeded (fun _ => Chores base)
      (Chores base) := by
  refine Ensures.get_bind fun s hs => ?_
  split
  · refine (publishBundle_chores.weaken fun t ht => ?_).bind fun _ => Ensures.pure fun _ ht => ht
    exact ht ▸ hs
  · exact Ensures.pure fun _ ht => ht ▸ hs.1

/-- A device that starts afresh publishes from its new pre-keys. -/
theorem regenerate_chores :
    Ensures (fun s => s = base) regenerate (fun _ s => ∃ t, Restart base t ∧ Chores t s)
      (fun s => ∃ t, (t = base ∨ Restart base t) ∧ Chores t s) := by
  refine Ensures.get_bind fun s hs => ?_
  subst hs
  have hrestart : Ensures (fun t => t = s)
      (Action.changeStore fun store =>
        return ((), ← store.reprovision s.messenger.settings.maxOneTimePreKeys s.now))
      (fun _ t => Restart s ((t.setPendingRotation none).setNeedsPublishing true) ∧ t.Filed)
      (fun t => ∃ u, (u = s ∨ Restart s u) ∧ Chores u t) := by
    refine Ensures.changeStore ?_ ?_
    · rintro t a st e rfl h
      obtain ⟨st', e₁, hr, h⟩ := bind_eq_ok_iff.mp h
      cases h
      exact ⟨⟨st, e, hr, rfl⟩, Store.filed_of_reprovision hr⟩
    · rintro t err e rfl h
      have hlater : Draw.Advances (do
          return ((), ← t.messenger.store.reprovision t.messenger.settings.maxOneTimePreKeys
            t.now)) := (Store.reprovision_advances _ _ _).bind fun _ => Draw.Advances.pure _
      exact ⟨t, .inl rfl, .single (.waste e (hlater.of_error h))⟩
  refine hrestart.bind fun _ => Ensures.bind (q := fun _ t => Restart s t ∧ t.Filed)
    (Ensures.modify fun t ht => ht) fun _ => ?_
  intro t ht
  have hkeeps : Ensures (fun s => Chores t s ∧ s.Filed) publishBundle (fun _ => Chores t)
      (Chores t) := publishBundle_chores
  have hpublished := hkeeps t ⟨.refl, ht.2⟩
  cases h : publishBundle t with
  | ok a u =>
    rw [h] at hpublished
    exact ⟨t, ht.1, hpublished⟩
  | error err u =>
    rw [h] at hpublished
    exact ⟨t, .inr ht.1, hpublished⟩

/-! ## Rotating -/

/-- A rotation takes up a signed pre-key, which is chosen once it is noted. -/
theorem nextSignedPreKey_chores (hfiled : base.Filed) :
    Ensures (fun s => s = base) nextSignedPreKey
      (fun next s => Chores base (s.setPendingRotation (some next.id)) ∧
        (s.setPendingRotation (some next.id)).Chooses next)
      (Chores base) := by
  refine Ensures.get_bind fun s hs => ?_
  subst hs
  split
  · next key hkey =>
    refine Ensures.pure ?_
    rintro t rfl
    obtain ⟨id, hpending, hget⟩ := Option.bind_eq_some_iff.mp hkey
    have hid : key.id = id := hfiled id key hget
    have hsame : t.setPendingRotation (some key.id) = t := by
      rw [hid]
      unfold Scene.setPendingRotation
      rw [← hpending]
    refine ⟨by rw [hsame], ?_, .inr rfl⟩
    rw [hid]
    exact hget
  · next hnone =>
    refine Ensures.changeStore ?_ ?_
    · rintro t key st e rfl h
      obtain ⟨⟨key', r⟩, e₁, hcreate, h⟩ := bind_eq_ok_iff.mp h
      cases h
      exact ⟨.single (.create key r e hnone hcreate),
        (SignedPreKeyRing.create_filed hfiled hcreate).2.1, .inr rfl⟩
    · rintro t err e rfl h
      exact .single (.waste e ((Store.createSignedPreKey_advances _ _).of_error h))

theorem prune_chores : Ensures (Chores base) prune (fun _ => Chores base) (Chores base) := by
  refine Ensures.get_bind fun s hs => Ensures.changeStore ?_ ?_
  · rintro t a st e rfl h
    cases h
    exact hs.tail .purge
  · rintro t err e rfl h
    cases h

/-- The signed pre-key of the bundle published is put in use. -/
theorem promote_chores (next : SignedPreKey) :
    Ensures (fun s => Chores base s ∧ s.Announces next) (promote next.id)
      (fun _ s => Chores base (s.setPendingRotation none)) (Chores base) := by
  refine Ensures.changeStore ?_ ?_
  · rintro s previous st e ⟨hs, -, b, hb, hid⟩ h
    obtain ⟨hp, rfl⟩ := Draw.ofExcept_eq_ok_iff.mp h
    obtain ⟨r, hr, rfl⟩ := Store.exists_of_promoteSignedPreKey hp
    exact hs.tail (.promote b previous r hb (hid ▸ hr))
  · rintro s err e ⟨hs, -⟩ h
    exact hs.tail (.waste e ((Draw.Advances.ofExcept _).of_error h))

theorem scheduleExpiry_chores (id : UInt32) :
    Ensures (fun s => Chores base s ∧ s.messenger.pendingRotation = none) (scheduleExpiry id)
      (fun _ => Chores base) (Chores base) := by
  refine Ensures.get_bind fun s hs => ?_
  split
  · exact Ensures.throw fun _ ht => ht ▸ hs.1
  · next expiry _ =>
    refine Ensures.changeStore ?_ ?_
    · rintro t a st e rfl h
      obtain ⟨st', e₁, hx, h⟩ := bind_eq_ok_iff.mp h
      obtain ⟨hexpire, rfl⟩ := Draw.ofExcept_eq_ok_iff.mp hx
      cases h
      obtain ⟨r, hr, rfl⟩ := Store.exists_of_expireSignedPreKey hexpire
      exact hs.1.tail (.expire id expiry r hs.2 hr)
    · rintro t err e rfl h
      exact hs.1.tail (.waste e (((Draw.Advances.ofExcept _).bind fun _ =>
        Draw.Advances.pure _).of_error h))

/-- A rotation takes up a signed pre-key, publishes it, and puts it in use only then. -/
theorem rotate_chores (hfiled : base.Filed) :
    Ensures (fun s => s = base) rotate (fun _ => Chores base) (Chores base) := by
  refine (nextSignedPreKey_chores hfiled).bind fun next => ?_
  refine Ensures.bind (Ensures.modify (q := fun _ s => Chores base s ∧ s.Chooses next)
    fun s hs => hs) fun _ => ?_
  refine (publishWith_chores next).bind fun _ => (promote_chores next).bind fun previous => ?_
  refine Ensures.bind (Ensures.modify
    (q := fun _ s => Chores base s ∧ s.messenger.pendingRotation = none)
    fun s hs => ⟨hs, rfl⟩) fun _ => ?_
  have hpruned : Ensures (Chores base) (prune >>= fun _ => (pure next.id : Action UInt32))
      (fun _ => Chores base) (Chores base) :=
    prune_chores.bind fun _ => Ensures.pure fun _ hs => hs
  cases previous with
  | some id => exact (scheduleExpiry_chores id).bind fun _ => hpruned
  | none => exact hpruned.weaken fun _ hs => hs.1

theorem rotateIfDue_chores (hfiled : base.Filed) :
    Ensures (fun s => s = base) rotateIfDue (fun _ => Chores base) (Chores base) := by
  refine Ensures.get_bind fun s hs => ?_
  subst hs
  have hcurrent : Ensures (fun t => t = s)
      (Action.ofExcept s.messenger.store.signedPreKeys.current?) (fun _ t => t = s)
      (Chores s) := Ensures.ofExcept (fun _ _ _ ht => ht) fun t ht => ht ▸ .refl
  refine hcurrent.bind fun current => ?_
  dsimp only
  split
  · exact Ensures.pure fun t ht => ht ▸ .refl
  · exact (rotate_chores hfiled).bind fun id => Ensures.pure fun _ ht => ht

end Messenger

/-- The requests that are upkeep. -/
def Request.IsUpkeep : Request → Prop
  | .publishBundle | .publishIfNeeded | .purgeDevices | .rotate | .rotateIfDue | .prune
  | .regenerate => True
  | _ => False

/-- Upkeep is a sequence of chores, whether it succeeds or fails, possibly of a device that just
started afresh. -/
theorem Request.perform_chores {request : Request} (h : request.IsUpkeep) {s : Scene}
    (hfiled : s.Filed) : ∃ t, (t = s ∨ Restart s t) ∧ Chores t (request.perform s) := by
  have hbase : Chores s s ∧ s.Filed := ⟨.refl, hfiled⟩
  have hplain : Chores s (request.perform s) →
      ∃ t, (t = s ∨ Restart s t) ∧ Chores t (request.perform s) := fun h => ⟨s, .inl rfl, h⟩
  cases request with
  | publishBundle =>
    exact hplain (Messenger.publishBundle_chores.endState (fun _ _ ht => ht) hbase)
  | publishIfNeeded =>
    exact hplain (Messenger.publishIfNeeded_chores.endState (fun _ _ ht => ht) hbase)
  | purgeDevices => exact hplain (Messenger.purgeDevices_chores.endState (fun _ _ ht => ht) .refl)
  | rotate => exact hplain ((Messenger.rotate_chores hfiled).endState (fun _ _ ht => ht) rfl)
  | rotateIfDue =>
    exact hplain ((Messenger.rotateIfDue_chores hfiled).endState (fun _ _ ht => ht) rfl)
  | prune => exact hplain (Messenger.prune_chores.endState (fun _ _ ht => ht) .refl)
  | regenerate =>
    refine Messenger.regenerate_chores.endState ?_ rfl
    rintro _ t ⟨u, hu, hut⟩
    exact ⟨u, .inr hu, hut⟩
  | _ => exact h.elim

end MultiDevice
