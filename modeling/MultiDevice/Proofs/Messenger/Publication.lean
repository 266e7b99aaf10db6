import MultiDevice.Proofs.Draw
import MultiDevice.Proofs.Messenger.Request

/-!
# Publications that fail

A publication first hands over the bundle and then sees to it that the device is listed. When the
directory refuses the bundle, the publication stays due. When it takes the bundle, the publication
is no longer due, although the device may not be listed yet; and the lookup of the own device list
can still fail. Nothing else that a publication does fails in a way that is worth a retry.

## Main definitions

* `FailsForGood`: a computation whose failures are not worth a retry
* `Scene.Unpublished`: how a publication fails
* `Request.FailsToPublish`: a request that publishes fails

## Main results

* `Request.unpublished_of_failsToPublish`: how each request that publishes fails
* `Scene.due_of_failed_publication`: a publication that failed stays due, unless the bundle was
  taken
-/

namespace MultiDevice

/-! ## Failures that are not worth a retry -/

section FailsForGood

variable {σ α β : Type}

/-- A computation that fails, if at all, with an error that is not worth a retry. -/
def FailsForGood (x : EStateM Error σ α) : Prop :=
  ∀ s err t, x s = .error err t → err.isRetryable = false

namespace FailsForGood

protected theorem pure (a : α) : FailsForGood (pure a : EStateM Error σ α) := nofun

protected theorem get : FailsForGood (get : EStateM Error σ σ) := nofun

protected theorem modify (f : σ → σ) : FailsForGood (modify f : EStateM Error σ PUnit) := nofun

protected theorem throw {err : Error} (h : err.isRetryable = false) :
    FailsForGood (throw err : EStateM Error σ α) := by
  intro s err' t herr
  cases herr
  exact h

theorem bind {x : EStateM Error σ α} {f : α → EStateM Error σ β} (hx : FailsForGood x)
    (hf : ∀ a, FailsForGood (f a)) : FailsForGood (x >>= f) := by
  intro s err t h
  rcases bind_eq_error_iff.mp h with h | ⟨a, u, -, h⟩
  · exact hx s err t h
  · exact hf a u err t h

theorem ite {c : Prop} [Decidable c] {x y : EStateM Error σ α} (hx : FailsForGood x)
    (hy : FailsForGood y) : FailsForGood (if c then x else y) := by
  split
  · exact hx
  · exact hy

protected theorem block (n : Nat) : FailsForGood (Entropy.block n) := by
  intro e err e' h
  rw [Entropy.eq_of_block_error h]
  rfl

theorem drawOfExcept {x : Except Error α} (h : ∀ err, x = .error err → err.isRetryable = false) :
    FailsForGood (Draw.ofExcept x) := by
  cases x with
  | ok a => exact FailsForGood.pure a
  | error err => exact FailsForGood.throw (h err rfl)

theorem onStore {x : EStateM Error (Store × Entropy) α} (hx : FailsForGood x) :
    FailsForGood (Action.onStore x) := by
  intro s err t h
  unfold Action.onStore at h
  split at h
  · cases h
  · next herr =>
    cases h
    exact hx _ _ _ herr

theorem changeStore {f : Store → Draw (α × Store)} (hf : ∀ store, FailsForGood (f store)) :
    FailsForGood (Action.changeStore f) := by
  intro s err t h
  obtain ⟨e, herr, -⟩ := Action.changeStore_eq_error_iff.mp h
  exact hf _ _ _ _ herr

end FailsForGood

end FailsForGood

namespace OneTimePreKeyPool

theorem generateOne_failsForGood : FailsForGood generateOne := by
  have hdraw : ∀ id, FailsForGood (OneTimePreKey.generate id) := fun id =>
    (FailsForGood.block 32).bind fun _ => FailsForGood.pure _
  rintro ⟨p, e⟩ err t h
  unfold generateOne at h
  dsimp only at h
  split at h
  · cases h
  · next herr =>
    cases h
    exact hdraw _ _ _ _ herr

theorem generate_failsForGood (count : Nat) : FailsForGood (generate count) := by
  induction count with
  | zero => exact FailsForGood.pure _
  | succ count ih =>
    exact generateOne_failsForGood.bind fun _ => ih.bind fun _ => FailsForGood.pure _

theorem replenish_failsForGood (target : Nat) : FailsForGood (replenish target) :=
  FailsForGood.get.bind fun _ => (generate_failsForGood _).bind fun _ => FailsForGood.pure _

end OneTimePreKeyPool

namespace Store

theorem replenish_failsForGood (target : Nat) : FailsForGood (Store.replenish target) := by
  rintro ⟨s, e⟩ err t h
  unfold replenish at h
  dsimp only at h
  split at h
  · cases h
  · next herr =>
    cases h
    exact OneTimePreKeyPool.replenish_failsForGood target _ _ _ herr

theorem newPool_failsForGood (first : UInt32) (count : Nat) :
    FailsForGood (newPool first count) := by
  intro e err t h
  unfold newPool at h
  split at h
  · cases h
  · next herr =>
    cases h
    exact OneTimePreKeyPool.replenish_failsForGood count _ _ _ herr

theorem reprovision_failsForGood (s : Store) (count : Nat) (now : Time) :
    FailsForGood (s.reprovision count now) := by
  have hkey : FailsForGood (SignedPreKey.generate s.signedPreKeys.nextId now) :=
    (FailsForGood.block 32).bind fun _ => FailsForGood.pure _
  have hidentity : FailsForGood IdentityKey.generate :=
    (FailsForGood.block 32).bind fun _ => FailsForGood.pure _
  refine (hkey.bind fun _ => FailsForGood.pure _).bind fun ring => ?_
  refine (newPool_failsForGood _ _).bind fun pool => ?_
  exact hidentity.bind fun _ => FailsForGood.pure _

theorem createSignedPreKey_failsForGood (s : Store) (now : Time) :
    FailsForGood (s.createSignedPreKey now) := by
  have hkey : FailsForGood (SignedPreKey.generate s.signedPreKeys.nextId now) :=
    (FailsForGood.block 32).bind fun _ => FailsForGood.pure _
  exact (hkey.bind fun _ => FailsForGood.pure _).bind fun _ => FailsForGood.pure _

end Store

namespace SignedPreKeyRing

variable {r : SignedPreKeyRing} {err : Error}

theorem isRetryable_of_promote {id : UInt32} (h : r.promote id = .error err) :
    err.isRetryable = false := by
  unfold promote at h
  split at h
  · cases h
  · cases h
    rfl

theorem isRetryable_of_expire {id : UInt32} {expiry : Time} (h : r.expire id expiry = .error err) :
    err.isRetryable = false := by
  unfold expire at h
  split at h
  · cases h
    rfl
  · split at h
    · cases h
    · cases h

theorem isRetryable_of_current? (h : r.current? = .error err) : err.isRetryable = false := by
  unfold current? at h
  split at h
  · cases h
  · cases h
    rfl

end SignedPreKeyRing

namespace Messenger

theorem fillPool_failsForGood : FailsForGood fillPool := by
  refine FailsForGood.get.bind fun s => FailsForGood.ite ?_ (FailsForGood.pure _)
  exact (FailsForGood.onStore (Store.replenish_failsForGood _)).bind fun _ => FailsForGood.pure _

theorem nextSignedPreKey_failsForGood : FailsForGood nextSignedPreKey := by
  refine FailsForGood.get.bind fun s => ?_
  split
  · exact FailsForGood.pure _
  · exact FailsForGood.changeStore fun store => store.createSignedPreKey_failsForGood s.now

theorem promote_failsForGood (id : UInt32) : FailsForGood (promote id) := by
  refine FailsForGood.changeStore fun store => FailsForGood.drawOfExcept fun err h => ?_
  unfold Store.promoteSignedPreKey at h
  cases hr : store.signedPreKeys.promote id with
  | ok p =>
    rw [hr] at h
    cases h
  | error err' =>
    rw [hr] at h
    cases h
    exact SignedPreKeyRing.isRetryable_of_promote hr

theorem scheduleExpiry_failsForGood (id : UInt32) : FailsForGood (scheduleExpiry id) := by
  refine FailsForGood.get.bind fun s => ?_
  split
  · exact FailsForGood.throw rfl
  · next expiry _ =>
    refine FailsForGood.changeStore fun store => ?_
    refine (FailsForGood.drawOfExcept fun err h => ?_).bind fun _ => FailsForGood.pure _
    unfold Store.expireSignedPreKey at h
    cases hr : store.signedPreKeys.expire id expiry with
    | ok r =>
      rw [hr] at h
      cases h
    | error err' =>
      rw [hr] at h
      cases h
      exact SignedPreKeyRing.isRetryable_of_expire hr

theorem prune_failsForGood : FailsForGood prune :=
  FailsForGood.get.bind fun _ => FailsForGood.changeStore fun _ => FailsForGood.pure _

/-- What comes after the publication in a rotation does not fail in a way that is worth a retry. -/
theorem finish_failsForGood (id : UInt32) : FailsForGood (finish id) := by
  refine (promote_failsForGood _).bind fun previous => (FailsForGood.modify _).bind fun _ => ?_
  have hprune : FailsForGood (prune >>= fun _ => (pure id : Action UInt32)) :=
    prune_failsForGood.bind fun _ => FailsForGood.pure _
  cases previous with
  | some id => exact (scheduleExpiry_failsForGood id).bind fun _ => hprune
  | none => exact hprune

end Messenger

/-! ## How a publication fails -/

namespace Directory

variable {d d' : Directory} {device : DeviceAddress} {bundle : DeviceBundle} {account : Account}

/-- A directory takes a bundle unless it refuses publications. -/
theorem publishBundle_of_refuses (h : d.refusesPublication = true) :
    d.publishBundle device bundle = .error (.bundleRejected device) := by
  unfold publishBundle
  rw [if_pos h]

/-- How looking up a device list fails. -/
theorem listDevices_eq_error_iff {err : Error} :
    d.listDevices account = .error err ↔ d.faults[account]? = some err ∨
      d.faults[account]? = none ∧ account ∈ d.failingAccounts ∧ .lookupFailed account = err := by
  unfold listDevices
  cases d.faults[account]? with
  | some fault => simp
  | none => by_cases hfailing : account ∈ d.failingAccounts <;> simp [hfailing]

/-- A directory that took a bundle takes a device list, and looking up fails as before. -/
theorem exists_publishBundle (h : d.refusesPublication = false) (device : DeviceAddress)
    (bundle : DeviceBundle) : ∃ d', d.publishBundle device bundle = .ok d' ∧
      d'.refusesPublication = false ∧
      ∀ account err, d'.listDevices account = .error err ↔ d.listDevices account = .error err := by
  unfold publishBundle
  refine ⟨_, if_neg (h ▸ Bool.false_ne_true), h, fun account err => ?_⟩
  rw [listDevices_eq_error_iff, listDevices_eq_error_iff]

end Directory

/-- How a publication fails: the bundle was refused and is due, or it was taken, is not due any
more, and the device list of the account cannot be looked up. -/
def Scene.Unpublished (s : Scene) (err : Error) (t : Scene) : Prop :=
  (s.directory.refusesPublication = true ∧ t.messenger.needsPublishing = true) ∨
    (s.directory.refusesPublication = false ∧
      s.directory.listDevices s.messenger.address.account = .error err ∧
      t.messenger.needsPublishing = false)

namespace Messenger

variable {s t : Scene} {err : Error}

/-- The note whether the bundle has to be published decides what is answered. -/
theorem publishIfNeeded_of_due [CipherSuite] (h : s.messenger.needsPublishing = true)
    (t : Scene) : publishIfNeeded s ≠ .ok false t := by
  rw [publishIfNeeded, bind_get, if_pos h]
  intro hok
  obtain ⟨_, u, -, hpure⟩ := bind_eq_ok_iff.mp hok
  cases hpure

theorem publishIfNeeded_of_not_due [CipherSuite] (h : s.messenger.needsPublishing = false) :
    publishIfNeeded s = .ok false s := by
  rw [publishIfNeeded, bind_get, if_neg (h ▸ Bool.false_ne_true)]
  rfl

/-- A directory that takes publications takes a device list. -/
theorem exists_publishDevices (h : s.directory.refusesPublication = false)
    (devices : List Advertisement) : ∃ t, publishDevices devices s = .ok () t := by
  rw [publishDevices, bind_get]
  unfold Directory.publishDeviceList
  rw [h, if_neg Bool.false_ne_true]
  exact ⟨_, rfl⟩

/-- When the directory takes publications the device can be listed, unless the list cannot be looked
up. -/
theorem eq_of_ensureListed_eq_error (h : s.directory.refusesPublication = false)
    (herr : ensureListed s = .error err t) :
    s.directory.listDevices s.messenger.address.account = .error err ∧ t = s := by
  rw [ensureListed, bind_get] at herr
  rcases bind_eq_error_iff.mp herr with hlookup | ⟨devices, u, hlookup, hrest⟩
  · obtain ⟨hfails, rfl⟩ := Action.ofExcept_eq_error_iff.mp hlookup
    exact ⟨hfails, rfl⟩
  · obtain ⟨-, rfl⟩ := Action.ofExcept_eq_ok_iff.mp hlookup
    split at hrest
    · cases hrest
    · obtain ⟨u, hpublished⟩ := exists_publishDevices h _
      cases hpublished.symm.trans hrest

variable [CipherSuite]

/-- What can be done again about a publication that failed is due to the directory. -/
theorem unpublished_of_publishWith {signed : SignedPreKey}
    (h : publishWith signed s = .error err t) (hretry : err.isRetryable = true) :
    s.Unpublished err t := by
  rcases bind_eq_error_iff.mp h with hfill | ⟨_, u, hfill, h⟩
  · cases hretry.symm.trans (fillPool_failsForGood _ _ _ hfill)
  have hleaves : Leaves (fun v : Scene => (v.messenger.address, v.directory)) fillPool :=
    fillPool_leaves (fun _ _ => rfl) fun _ _ => rfl
  obtain ⟨haddress, hdirectory⟩ := Prod.mk.inj (hleaves.eq_of_ok hfill)
  unfold Scene.Unpublished
  rw [← haddress, ← hdirectory]
  rw [bind_get] at h
  cases hrefuses : u.directory.refusesPublication with
  | true =>
    have hrejected : submitBundle (bundle u.messenger.store signed) u =
        .error (.bundleRejected u.messenger.address) (u.setNeedsPublishing true) := by
      rw [submitBundle, bind_get, Directory.publishBundle_of_refuses hrefuses]
      rfl
    rw [bind_of_error hrejected] at h
    cases h
    exact .inl ⟨rfl, rfl⟩
  | false =>
    obtain ⟨d, hd, htakes, hlist⟩ :=
      Directory.exists_publishBundle hrefuses u.messenger.address (bundle u.messenger.store signed)
    have htaken : submitBundle (bundle u.messenger.store signed) u =
        .ok () ((u.setNeedsPublishing false).setDirectory d) := by
      rw [submitBundle, bind_get, hd]
      rfl
    rw [bind_of_ok htaken] at h
    obtain ⟨hfails, rfl⟩ := eq_of_ensureListed_eq_error htakes h
    exact .inr ⟨rfl, (hlist _ _).mp hfails, rfl⟩

theorem unpublished_of_publishBundle (h : publishBundle s = .error err t)
    (hretry : err.isRetryable = true) : s.Unpublished err t := by
  rw [publishBundle, bind_get] at h
  rcases bind_eq_error_iff.mp h with hcurrent | ⟨current, u, hcurrent, h⟩
  · obtain ⟨hmissing, -⟩ := Action.ofExcept_eq_error_iff.mp hcurrent
    cases hretry.symm.trans (SignedPreKeyRing.isRetryable_of_current? hmissing)
  · obtain ⟨-, rfl⟩ := Action.ofExcept_eq_ok_iff.mp hcurrent
    exact unpublished_of_publishWith h hretry

theorem unpublished_of_publishIfNeeded (h : publishIfNeeded s = .error err t)
    (hretry : err.isRetryable = true) : s.Unpublished err t := by
  rw [publishIfNeeded, bind_get] at h
  split at h
  · rcases bind_eq_error_iff.mp h with h | ⟨_, u, -, hpure⟩
    · exact unpublished_of_publishBundle h hretry
    · cases hpure
  · cases h

theorem unpublished_of_rotate (h : rotate s = .error err t) (hretry : err.isRetryable = true) :
    s.Unpublished err t := by
  rw [rotate_eq] at h
  rcases bind_eq_error_iff.mp h with hnext | ⟨next, u, hnext, h⟩
  · cases hretry.symm.trans (nextSignedPreKey_failsForGood _ _ _ hnext)
  obtain ⟨_, v, hmodify, h⟩ := (bind_eq_error_iff.mp h).resolve_left nofun
  cases hmodify
  have houtside : OutsideStore fun w : Scene => (w.messenger.address, w.directory) :=
    ⟨fun _ _ => rfl, fun _ _ => rfl, fun _ _ => rfl⟩
  have hleaves := houtside.nextSignedPreKey
  obtain ⟨haddress, hdirectory⟩ := Prod.mk.inj (hleaves.eq_of_ok hnext)
  rcases bind_eq_error_iff.mp h with h | ⟨_, w, -, h⟩
  · have hfails := unpublished_of_publishWith h hretry
    unfold Scene.Unpublished at hfails ⊢
    rw [← haddress, ← hdirectory]
    exact hfails
  · cases hretry.symm.trans (finish_failsForGood _ _ _ _ h)

theorem unpublished_of_rotateIfDue (h : rotateIfDue s = .error err t)
    (hretry : err.isRetryable = true) : s.Unpublished err t := by
  rw [rotateIfDue, bind_get] at h
  rcases bind_eq_error_iff.mp h with hcurrent | ⟨current, u, hcurrent, h⟩
  · obtain ⟨hmissing, -⟩ := Action.ofExcept_eq_error_iff.mp hcurrent
    cases hretry.symm.trans (SignedPreKeyRing.isRetryable_of_current? hmissing)
  obtain ⟨-, rfl⟩ := Action.ofExcept_eq_ok_iff.mp hcurrent
  split at h
  · cases h
  · rcases bind_eq_error_iff.mp h with h | ⟨_, u, -, hpure⟩
    · exact unpublished_of_rotate h hretry
    · cases hpure

theorem unpublished_of_regenerate (h : regenerate s = .error err t)
    (hretry : err.isRetryable = true) : s.Unpublished err t := by
  rw [regenerate, bind_get] at h
  rcases bind_eq_error_iff.mp h with hkeys | ⟨_, u, hkeys, h⟩
  · have hfails : FailsForGood (Action.changeStore fun store =>
        return ((), ← store.reprovision s.messenger.settings.maxOneTimePreKeys s.now)) :=
      FailsForGood.changeStore fun store =>
        (store.reprovision_failsForGood _ _).bind fun _ => FailsForGood.pure _
    cases hretry.symm.trans (hfails _ _ _ hkeys)
  obtain ⟨st, e, -, rfl⟩ := Action.changeStore_eq_ok_iff.mp hkeys
  obtain ⟨_, v, hmodify, h⟩ := (bind_eq_error_iff.mp h).resolve_left nofun
  cases hmodify
  have hfails := unpublished_of_publishBundle h hretry
  exact hfails

end Messenger

section Requests

variable [CipherSuite]

/-- A request that publishes the bundle fails. -/
def Request.FailsToPublish (s : Scene) (err : Error) (t : Scene) : Request → Prop
  | .publishBundle => Messenger.publishBundle s = .error err t
  | .publishIfNeeded => Messenger.publishIfNeeded s = .error err t
  | .rotate => Messenger.rotate s = .error err t
  | .rotateIfDue => Messenger.rotateIfDue s = .error err t
  | .regenerate => Messenger.regenerate s = .error err t
  | _ => False

/-- Each request that publishes fails because the bundle is refused, or because the own device list
cannot be looked up afterwards. -/
theorem Request.unpublished_of_failsToPublish {request : Request} {s t : Scene} {err : Error}
    (h : request.FailsToPublish s err t) (hretry : err.isRetryable = true) :
    s.Unpublished err t := by
  cases request with
  | publishBundle => exact Messenger.unpublished_of_publishBundle h hretry
  | publishIfNeeded => exact Messenger.unpublished_of_publishIfNeeded h hretry
  | rotate => exact Messenger.unpublished_of_rotate h hretry
  | rotateIfDue => exact Messenger.unpublished_of_rotateIfDue h hretry
  | regenerate => exact Messenger.unpublished_of_regenerate h hretry
  | _ => exact h.elim

/-- A publication that fails because the directory refuses it stays due, and the next one is not
skipped. The only other failure is that the directory takes the bundle and then cannot look up the
own device list: that publication is not due any more, and the next one is skipped, whether the
device is listed or not. -/
theorem Scene.due_of_failed_publication {s t : Scene} {request : Request} {err : Error}
    (h : request.FailsToPublish s err t)
    (harea : err.area? = some .publishing ∨ err.area? = some .resolution) :
    (s.directory.refusesPublication = true ∧ t.messenger.needsPublishing = true ∧
        ∀ u, Messenger.publishIfNeeded t ≠ .ok false u) ∨
      (s.directory.refusesPublication = false ∧
        s.directory.listDevices s.messenger.address.account = .error err ∧
        t.messenger.needsPublishing = false ∧ Messenger.publishIfNeeded t = .ok false t) := by
  have hretry : err.isRetryable = true := by
    unfold Error.isRetryable
    rcases harea with harea | harea <;> simp [harea]
  rcases request.unpublished_of_failsToPublish h hretry with
    ⟨hrefuses, hdue⟩ | ⟨htakes, hlist, hdone⟩
  · exact .inl ⟨hrefuses, hdue, Messenger.publishIfNeeded_of_due hdue⟩
  · exact .inr ⟨htakes, hlist, hdone, Messenger.publishIfNeeded_of_not_due hdone⟩

end Requests

section Example

attribute [local instance] CipherSuite.transparent

/-- The error that publishing for the first time in a directory fails with, whether the publication
is due then, and the device list of the account. -/
def Scene.failedPublication? (directory : Directory) (start : Scene) :
    Option (Error × Bool × List Advertisement) :=
  match Messenger.publishBundle (start.run [.surroundings directory .epoch .counting]) with
  | .ok _ _ => none
  | .error err t => some (err, t.messenger.needsPublishing,
      t.directory.devicesOf start.messenger.address.account)

theorem Scene.exists_of_failedPublication {directory : Directory} {start : Scene} {err : Error}
    {due : Bool} {entries : List Advertisement}
    (h : start.failedPublication? directory = some (err, due, entries)) :
    ∃ t, Messenger.publishBundle (start.run [.surroundings directory .epoch .counting]) =
        .error err t ∧ t.messenger.needsPublishing = due ∧
      t.directory.devicesOf start.messenger.address.account = entries := by
  unfold failedPublication? at h
  split at h
  · cases h
  · next t hpublish =>
    cases h
    exact ⟨t, hpublish, rfl, rfl⟩

/-- A bundle that the directory refuses stays due. -/
theorem Scene.due_of_refused_bundle :
    ∃ start t, Provisioned start ∧
      Messenger.publishBundle (start.run [.surroundings
        { Directory.empty with refusesPublication := true } .epoch .counting]) =
          .error (.bundleRejected ⟨"alice", 1⟩) t ∧
      t.messenger.needsPublishing = true ∧ ∀ u, Messenger.publishIfNeeded t ≠ .ok false u := by
  have hstart : (newcomer? ⟨"alice", 1⟩).any fun start =>
      start.failedPublication? { Directory.empty with refusesPublication := true } =
        some (.bundleRejected ⟨"alice", 1⟩, true, []) := by
    decide +kernel
  obtain ⟨start, hsome, hp⟩ := (Option.any_eq_true _ _).mp hstart
  obtain ⟨t, ht, -, -⟩ := exists_of_failedPublication (of_decide_eq_true hp)
  refine ⟨start, t, provisioned_of_newcomer hsome, ht, ?_⟩
  have hfails : Request.FailsToPublish _ _ _ .publishBundle := ht
  rcases due_of_failed_publication hfails (.inl rfl) with ⟨-, hdue⟩ | ⟨htakes, -⟩
  · exact hdue
  · cases htakes

/-- When the own account cannot be looked up, the bundle is published, the device is not on the list
of its account, and the publication is not due any more. -/
theorem Scene.not_due_of_failed_lookup :
    ∃ start t, Provisioned start ∧
      Messenger.publishBundle (start.run [.surroundings
        { Directory.empty with failingAccounts := (∅ : AccountSet).insert "alice" }
          .epoch .counting]) = .error (.lookupFailed "alice") t ∧
      (Error.lookupFailed "alice").area? = some .resolution ∧
      t.messenger.needsPublishing = false ∧ Messenger.publishIfNeeded t = .ok false t ∧
      t.directory.devicesOf start.messenger.address.account = [] := by
  have hstart : (newcomer? ⟨"alice", 1⟩).any fun start =>
      start.failedPublication?
          { Directory.empty with failingAccounts := (∅ : AccountSet).insert "alice" } =
        some (.lookupFailed "alice", false, []) := by
    decide +kernel
  obtain ⟨start, hsome, hp⟩ := (Option.any_eq_true _ _).mp hstart
  obtain ⟨t, ht, hdone, hlist⟩ := exists_of_failedPublication (of_decide_eq_true hp)
  exact ⟨start, t, provisioned_of_newcomer hsome, ht, rfl, hdone,
    Messenger.publishIfNeeded_of_not_due hdone, hlist⟩

end Example

end MultiDevice
