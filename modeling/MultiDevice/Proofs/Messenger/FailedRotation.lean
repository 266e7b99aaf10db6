import MultiDevice.Proofs.Key.Ring
import MultiDevice.Proofs.Messenger.Outcome
import MultiDevice.Proofs.Resolve

/-!
# Rotations that fail

A rotation publishes a new signed pre-key and then puts it in use. Whatever goes wrong before the
bundle is published leaves the key in use and the bundle published before. Two things can go wrong
later, the lookup of the own device list and the computation of the expiry; when neither does, a
rotation that fails has changed nothing that others rely on.

## Main definitions

* `Scene.advertised`: the number of the signed pre-key in use, and the bundle published
* `Scene.Rotatable`: the own device list can be looked up and the expiry can be computed

## Main results

* `Request.perform_filed`: every request keeps the keys filed
* `Messenger.rotate_advertised`: what a rotation that fails leaves
* `Scene.advertised_of_failed_rotation`: the same of every scene that a device gets into
-/

namespace MultiDevice

theorem Store.filed_of_reprovision {s s' : Store} {count : Nat} {now : Time} {e e' : Entropy}
    (h : s.reprovision count now e = .ok s' e') : s'.signedPreKeys.Filed := by
  obtain ⟨ring, e₁, pool, e₂, identity, hring, -, -, rfl⟩ := reprovision_eq_ok_iff.mp h
  exact SignedPreKeyRing.startingAt_filed hring

open SignedPreKeyRing (Filed)

/-! ## Every request keeps the keys filed -/

/-- The signed pre-keys of a scene are kept under their own numbers. -/
def Scene.Filed (s : Scene) : Prop := s.messenger.store.signedPreKeys.Filed

theorem Provisioned.filed {s : Scene} (h : Provisioned s) : s.Filed := by
  obtain ⟨now, e, e', hring⟩ := h.exists_startingAt
  exact SignedPreKeyRing.startingAt_filed hring

namespace Messenger

/-- A change of the store that keeps the keys filed. -/
theorem changeStore_filed {α : Type} {f : Store → Draw (α × Store)}
    (hf : ∀ st a st' e e', st.signedPreKeys.Filed → f st e = .ok (a, st') e' →
      st'.signedPreKeys.Filed) :
    Ensures Scene.Filed (Action.changeStore f) (fun _ => Scene.Filed) Scene.Filed := by
  exact Ensures.changeStore (fun s a st e hs h => hf _ _ _ _ _ hs h) fun s err e hs _ => hs

theorem nextSignedPreKey_filed :
    Ensures Scene.Filed nextSignedPreKey (fun _ => Scene.Filed) Scene.Filed := by
  refine Ensures.get_bind fun s hs => ?_
  split
  · exact Ensures.pure fun _ ht => ht ▸ hs
  · refine (changeStore_filed fun st a st' e e' hst h => ?_).weaken fun _ ht => ht ▸ hs
    obtain ⟨⟨key, r⟩, t, hcreate, h⟩ := bind_eq_ok_iff.mp h
    cases h
    exact (SignedPreKeyRing.create_filed hst hcreate).1

theorem promote_filed (id : UInt32) :
    Ensures Scene.Filed (promote id) (fun _ => Scene.Filed) Scene.Filed := by
  refine changeStore_filed fun st a st' e e' hst h => ?_
  obtain ⟨hp, -⟩ := Draw.ofExcept_eq_ok_iff.mp h
  obtain ⟨signedPreKeys, hr, rfl⟩ := Store.exists_of_promoteSignedPreKey hp
  exact (SignedPreKeyRing.promote_drops hr).filed hst

theorem scheduleExpiry_filed (id : UInt32) :
    Ensures Scene.Filed (scheduleExpiry id) (fun _ => Scene.Filed) Scene.Filed := by
  refine Ensures.get_bind fun s hs => ?_
  split
  · exact Ensures.throw fun _ ht => ht ▸ hs
  · refine (changeStore_filed fun st a st' e e' hst h => ?_).weaken fun _ ht => ht ▸ hs
    obtain ⟨st'', t, hx, h⟩ := bind_eq_ok_iff.mp h
    obtain ⟨hexpire, -⟩ := Draw.ofExcept_eq_ok_iff.mp hx
    cases h
    obtain ⟨signedPreKeys, hr, rfl⟩ := Store.exists_of_expireSignedPreKey hexpire
    exact (SignedPreKeyRing.expire_drops hr).filed hst

theorem prune_filed : Ensures Scene.Filed prune (fun _ => Scene.Filed) Scene.Filed := by
  refine Ensures.get_bind fun s hs => ?_
  refine (changeStore_filed fun st a st' e e' hst h => ?_).weaken fun _ ht => ht ▸ hs
  cases h
  exact (st.signedPreKeys.purge_drops s.now).filed hst

variable [CipherSuite]

theorem publishWith_filed (signed : SignedPreKey) :
    Ensures Scene.Filed (publishWith signed) (fun _ => Scene.Filed) Scene.Filed :=
  (publishWith_leaves ⟨fun _ _ => rfl, fun _ _ => rfl, fun _ _ => rfl, fun _ _ => rfl⟩
    signed).ensures

theorem rotate_filed : Ensures Scene.Filed rotate (fun _ => Scene.Filed) Scene.Filed := by
  have hnote : ∀ id, Ensures Scene.Filed (modify fun s => s.setPendingRotation id : Action PUnit)
      (fun _ => Scene.Filed) Scene.Filed := fun id => Ensures.modify fun _ hs => hs
  refine nextSignedPreKey_filed.bind fun next => (hnote _).bind fun _ => ?_
  refine (publishWith_filed next).bind fun _ => (promote_filed _).bind fun previous => ?_
  refine (hnote none).bind fun _ => ?_
  have hpruned : Ensures Scene.Filed (prune >>= fun _ => (pure next.id : Action UInt32))
      (fun _ => Scene.Filed) Scene.Filed :=
    prune_filed.bind fun _ => Ensures.pure fun _ hs => hs
  cases previous with
  | some id => exact (scheduleExpiry_filed id).bind fun _ => hpruned
  | none => exact hpruned

theorem rotateIfDue_filed : Ensures Scene.Filed rotateIfDue (fun _ => Scene.Filed) Scene.Filed := by
  refine Ensures.get_bind fun s hs => ?_
  have hcurrent : Ensures (fun t => t = s)
      (Action.ofExcept s.messenger.store.signedPreKeys.current?) (fun _ => Scene.Filed)
      Scene.Filed := Ensures.ofExcept (fun _ _ _ ht => ht ▸ hs) fun _ ht => ht ▸ hs
  refine hcurrent.bind fun current => ?_
  dsimp only
  split
  · exact Ensures.pure fun _ ht => ht
  · exact rotate_filed.bind fun id => Ensures.pure fun _ ht => ht

theorem publishBundle_filed :
    Ensures Scene.Filed publishBundle (fun _ => Scene.Filed) Scene.Filed :=
  (publishBundle_leaves
    ⟨fun _ _ => rfl, fun _ _ => rfl, fun _ _ => rfl, fun _ _ => rfl⟩).ensures

theorem regenerate_filed : Ensures Scene.Filed regenerate (fun _ => Scene.Filed) Scene.Filed := by
  refine Ensures.get_bind fun s hs => Ensures.bind ?_ fun _ =>
    Ensures.bind (Ensures.modify fun _ ht => ht) fun _ => publishBundle_filed
  refine (changeStore_filed fun st a st' e e' hst h => ?_).weaken fun _ ht => ht ▸ hs
  obtain ⟨st'', t, hr, h⟩ := bind_eq_ok_iff.mp h
  cases h
  exact Store.filed_of_reprovision hr

end Messenger

/-- Every request keeps the signed pre-keys under their own numbers. -/
theorem Request.perform_filed [CipherSuite] (request : Request) {s : Scene} (h : s.Filed) :
    (request.perform s).Filed := by
  have hv : IgnoresTraffic Scene.Filed :=
    ⟨⟨fun _ _ => rfl, fun _ _ => rfl, fun _ _ => rfl, fun _ _ => rfl⟩, fun _ _ _ => rfl⟩
  have hpublishing := hv.toIgnoresPublishing
  cases request with
  | encryptFor recipients plaintext allowed =>
    exact (Messenger.encryptFor_leaves hv recipients plaintext allowed s).mpr h
  | decrypt sender envelope =>
    rw [Request.perform, Messenger.decrypt_snd]
    exact (Messenger.read_leaves hv sender envelope s).mpr h
  | decideTrust device state => exact h
  | resetSession device => exact h
  | publishBundle => exact (Messenger.publishBundle_leaves hpublishing s).mpr h
  | publishIfNeeded => exact (Messenger.publishIfNeeded_leaves hpublishing s).mpr h
  | purgeDevices => exact (Messenger.purgeDevices_leaves hpublishing.directory s).mpr h
  | rotate => exact Messenger.rotate_filed.endState (fun _ _ hs => hs) h
  | rotateIfDue => exact Messenger.rotateIfDue_filed.endState (fun _ _ hs => hs) h
  | prune => exact Messenger.prune_filed.endState (fun _ _ hs => hs) h
  | regenerate => exact Messenger.regenerate_filed.endState (fun _ _ hs => hs) h
  | surroundings directory now entropy => exact h

/-! ## What a rotation that fails leaves -/

namespace Scene

/-- What others rely on: the number of the signed pre-key in use, and the bundle published. -/
def advertised (s : Scene) : UInt32 × Option DeviceBundle :=
  (s.messenger.store.signedPreKeys.current, s.directory.bundles[s.messenger.address]?)

/-- The own device list can be looked up, and the expiry of the key in use can be computed. -/
def Rotatable (s : Scene) : Prop :=
  s.directory.Answers s.messenger.address.account ∧
    (s.now.add? s.messenger.settings.gracePeriod).isSome

end Scene

namespace Messenger

variable {base : Scene} {next : SignedPreKey}

/-- A rotation can go on with a key that is kept, and what others rely on is unchanged. -/
def Unpublished (base : Scene) (next : SignedPreKey) (s : Scene) : Prop :=
  (s.Rotatable ∧ next.id ∈ s.messenger.store.signedPreKeys.keys) ∧ s.advertised = base.advertised

theorem nextSignedPreKey_advertised (hfiled : base.Filed) (hbase : base.Rotatable) :
    Ensures (fun s => s = base) nextSignedPreKey (Unpublished base)
      (fun s => s.advertised = base.advertised) := by
  refine Ensures.get_bind ?_
  rintro s rfl
  split
  · next key hkey =>
    refine Ensures.pure ?_
    rintro t rfl
    obtain ⟨id, -, hget⟩ := Option.bind_eq_some_iff.mp hkey
    refine ⟨⟨hbase, ?_⟩, rfl⟩
    rw [hfiled id key hget]
    exact Entries.mem_of_getElem? hget
  · refine Ensures.changeStore ?_ ?_
    · rintro t key st e rfl hc
      obtain ⟨⟨key', r⟩, e₁, hcreate, hst⟩ := bind_eq_ok_iff.mp hc
      cases hst
      obtain ⟨-, hkept, hcurrent⟩ := SignedPreKeyRing.create_filed hfiled hcreate
      exact ⟨⟨hbase, Entries.mem_of_getElem? hkept⟩, Prod.ext hcurrent rfl⟩
    · rintro t err e rfl -
      rfl

theorem fillPool_unpublished :
    Ensures (Unpublished base next) fillPool (fun _ => Unpublished base next)
      (fun s => s.advertised = base.advertised) := by
  have hfill : Leaves (Unpublished base next) fillPool :=
    fillPool_leaves (fun _ _ => rfl) fun _ _ => rfl
  exact hfill.ensures.mono (fun _ _ hs => hs) fun _ hs => hs.2

/-- A rotation can go on with a key that is kept, and the directory takes publications. -/
def Published (next : SignedPreKey) (s : Scene) : Prop :=
  (s.Rotatable ∧ next.id ∈ s.messenger.store.signedPreKeys.keys) ∧
    s.directory.refusesPublication = false

/-- A bundle that is refused is not published. -/
theorem submitBundle_published (bundle : DeviceBundle) :
    Ensures (Unpublished base next) (submitBundle bundle) (fun _ => Published next)
      (fun s => s.advertised = base.advertised) := by
  refine Ensures.get_bind fun s ⟨hs, hadvertised⟩ => ?_
  cases h : s.directory.publishBundle s.messenger.address bundle with
  | error err =>
    rintro s rfl
    exact hadvertised
  | ok directory =>
    rintro s rfl
    unfold Directory.publishBundle at h
    split at h
    · cases h
    · next hrefuses =>
      cases h
      exact ⟨hs, (Bool.not_eq_true _).mp hrefuses⟩

variable {fail : Scene → Prop}

/-- A directory that takes publications takes a device list. -/
theorem publishDevices_published (devices : List Advertisement) :
    Ensures (Published next) (publishDevices devices) (fun _ => Published next) fail := by
  refine Ensures.get_bind fun s hs => ?_
  rintro t rfl
  have hlist : t.directory.publishDeviceList t.messenger.address.account devices = .ok
      { t.directory with
        deviceLists := t.directory.deviceLists.insert t.messenger.address.account devices } := by
    unfold Directory.publishDeviceList
    exact if_neg (hs.2 ▸ Bool.false_ne_true)
  rw [hlist]
  exact hs

/-- Once the bundle is published the device can be listed. -/
theorem ensureListed_published :
    Ensures (Published next) ensureListed (fun _ => Published next) fail := by
  refine Ensures.get_bind fun s hs => ?_
  dsimp only
  rw [Directory.answers_iff.mp hs.1.1.1]
  have hlisted : Ensures (fun t => t = s)
      (Action.ofExcept (.ok (s.directory.devicesOf s.messenger.address.account)))
      (fun _ => Published next) fail := Ensures.pure fun _ ht => ht ▸ hs
  refine hlisted.bind fun devices => ?_
  split
  · exact Ensures.pure fun _ ht => ht
  · exact publishDevices_published _

/-- The promotion succeeds, and the key that it supersedes is not the one then in use. -/
theorem promote_published :
    Ensures (Published next) (promote next.id)
      (fun previous s => s.Rotatable ∧ ∀ id, previous = some id →
        id ≠ s.messenger.store.signedPreKeys.current) fail := by
  rintro s ⟨⟨hrotatable, hkept⟩, -⟩
  obtain ⟨previous, r, hring, hne⟩ := SignedPreKeyRing.exists_promote_of_mem hkept
  have hstore : Draw.ofExcept (s.messenger.store.promoteSignedPreKey next.id) s.entropy =
      .ok (previous, { s.messenger.store with signedPreKeys := r }) s.entropy := by
    unfold Store.promoteSignedPreKey
    rw [hring]
    rfl
  unfold promote
  rw [Action.changeStore_of_ok hstore]
  exact ⟨hrotatable, hne⟩

theorem scheduleExpiry_published (id : UInt32) :
    Ensures (fun s => s.Rotatable ∧ id ≠ s.messenger.store.signedPreKeys.current)
      (scheduleExpiry id) (fun _ _ => True) fail := by
  refine Ensures.get_bind fun s ⟨⟨_, hgrace⟩, hne⟩ => ?_
  obtain ⟨expiry, hexpiry⟩ := Option.isSome_iff_exists.mp hgrace
  rw [hexpiry]
  rintro t rfl
  obtain ⟨r, hring⟩ := SignedPreKeyRing.exists_expire_of_ne hne expiry
  have hstore : (return ((), ← Draw.ofExcept (t.messenger.store.expireSignedPreKey id expiry)) :
      Draw (Unit × Store)) t.entropy =
      .ok ((), { t.messenger.store with signedPreKeys := r }) t.entropy := by
    unfold Store.expireSignedPreKey
    rw [hring]
    rfl
  dsimp only
  rw [Action.changeStore_of_ok hstore]
  trivial

/-- Pruning does not fail. -/
theorem prune_published : Ensures (fun _ => True) prune (fun _ _ => True) fail := by
  refine Ensures.get_bind fun s _ => ?_
  rintro t -
  have hstore : (pure (t.messenger.store.purgeSignedPreKeys s.now) : Draw (List UInt32 × Store))
      t.entropy = .ok (_, _) t.entropy := rfl
  rw [Action.changeStore_of_ok hstore]
  trivial

variable [CipherSuite]

theorem publishWith_advertised (signed : SignedPreKey) :
    Ensures (Unpublished base next) (publishWith signed) (fun _ => Published next)
      (fun s => s.advertised = base.advertised) := by
  refine fillPool_unpublished.bind fun _ => Ensures.get_bind fun s hs => ?_
  exact ((submitBundle_published _).weaken fun _ ht => ht ▸ hs).bind fun _ => ensureListed_published

/-- A rotation that fails before its bundle is published has changed nothing that others rely on,
and it does not fail later. -/
theorem rotate_advertised (hfiled : base.Filed) (hbase : base.Rotatable) :
    Ensures (fun s => s = base) rotate (fun _ _ => True)
      (fun s => s.advertised = base.advertised) := by
  refine (nextSignedPreKey_advertised hfiled hbase).bind fun next => ?_
  have hpending : Ensures (Unpublished base next)
      (modify fun s => s.setPendingRotation (some next.id) : Action PUnit)
      (fun _ => Unpublished base next) (fun s => s.advertised = base.advertised) :=
    Ensures.modify fun _ hs => hs
  refine hpending.bind fun _ => (publishWith_advertised next).bind fun _ => ?_
  refine promote_published.bind fun previous => ?_
  have hdone : Ensures
      (fun s => s.Rotatable ∧ ∀ id, previous = some id →
        id ≠ s.messenger.store.signedPreKeys.current)
      (modify fun s => s.setPendingRotation none : Action PUnit)
      (fun _ s => s.Rotatable ∧ ∀ id, previous = some id →
        id ≠ s.messenger.store.signedPreKeys.current)
      (fun s => s.advertised = base.advertised) := Ensures.modify fun _ hs => hs
  refine hdone.bind fun _ => ?_
  have hpruned : Ensures (fun _ => True) (prune >>= fun _ => (pure next.id : Action UInt32))
      (fun _ _ => True) (fun s => s.advertised = base.advertised) :=
    prune_published.bind fun _ => Ensures.pure fun _ _ => trivial
  cases previous with
  | some id =>
    exact ((scheduleExpiry_published id).weaken fun s hs => ⟨hs.1, hs.2 id rfl⟩).bind fun _ =>
      hpruned
  | none => exact hpruned.weaken fun _ _ => trivial

theorem rotateIfDue_advertised (hfiled : base.Filed) (hbase : base.Rotatable) :
    Ensures (fun s => s = base) rotateIfDue (fun _ _ => True)
      (fun s => s.advertised = base.advertised) := by
  refine Ensures.get_bind ?_
  rintro s rfl
  have hcurrent : Ensures (fun t => t = s)
      (Action.ofExcept s.messenger.store.signedPreKeys.current?) (fun _ t => t = s)
      (fun t => t.advertised = s.advertised) :=
    Ensures.ofExcept (fun _ _ _ ht => ht) fun _ ht => congrArg Scene.advertised ht
  refine hcurrent.bind fun current => ?_
  dsimp only
  split
  · exact Ensures.pure fun _ _ => trivial
  · exact (rotate_advertised hfiled hbase).bind fun id => Ensures.pure fun _ _ => trivial

end Messenger

namespace Scene

/-- When a rotation of a device fails, whatever was done with the device and the directory before,
the signed pre-key in use and the bundle published are the ones from before, provided that the own
device list can be looked up and the expiry can be computed. -/
theorem advertised_of_failed_rotation [CipherSuite] {start t : Scene} (hstart : Provisioned start)
    (requests : List Request) (hrotatable : (start.run requests).Rotatable) {err : Error}
    (h : Messenger.rotate (start.run requests) = .error err t ∨
      Messenger.rotateIfDue (start.run requests) = .error err t) :
    t.advertised = (start.run requests).advertised := by
  have hfiled : (start.run requests).Filed :=
    run_induction (fun request _ hs => request.perform_filed hs) hstart.filed requests
  rcases h with h | h
  · have hfail := Messenger.rotate_advertised hfiled hrotatable _ rfl
    rw [h] at hfail
    exact hfail
  · have hfail := Messenger.rotateIfDue_advertised hfiled hrotatable _ rfl
    rw [h] at hfail
    exact hfail

section Example

attribute [local instance] CipherSuite.transparent

/-- A device that was just set up, with a grace period of its own. -/
def rotator? (gracePeriod : Duration) : Option Scene :=
  joining? ⟨"alice", 1⟩
    { Settings.standard with minOneTimePreKeys := 0, maxOneTimePreKeys := 0, gracePeriod }
    .empty .counting

/-- The number of the signed pre-key in use, and of the one in the bundle published. -/
def numbers (s : Scene) : UInt32 × Option UInt32 :=
  (s.advertised.1, s.advertised.2.map (·.signedPreKey.id))

/-- What a rotation that fails fails with, and the numbers after it. -/
def failedRotation? (s : Scene) : Option (Error × UInt32 × Option UInt32) :=
  match Messenger.rotate s with
  | .ok _ _ => none
  | .error err t => some (err, t.numbers)

theorem exists_of_failedRotation {s : Scene} {err : Error} {numbers : UInt32 × Option UInt32}
    (h : s.failedRotation? = some (err, numbers)) :
    ∃ t, Messenger.rotate s = .error err t ∧ t.numbers = numbers := by
  unfold failedRotation? at h
  split at h
  · cases h
  · next t hrotate =>
    cases h
    exact ⟨t, hrotate, rfl⟩

/-- After the bundle was published the directory begins to refuse publications. -/
def refusal (s : Scene) : List Request :=
  [.publishBundle, .surroundings { (s.run [.publishBundle]).directory with
    refusesPublication := true } .epoch .counting]

/-- After the bundle was published the own account cannot be looked up any more. -/
def outage (s : Scene) : List Request :=
  [.publishBundle, .surroundings { (s.run [.publishBundle]).directory with
    failingAccounts := (∅ : AccountSet).insert "alice" } .epoch .counting]

/-- A rotation that the directory refuses leaves the old key in use and published. -/
theorem advertised_of_refusal :
    ∃ start t, Provisioned start ∧ (start.run start.refusal).numbers = (1, some 1) ∧
      Messenger.rotate (start.run start.refusal) = .error (.bundleRejected ⟨"alice", 1⟩) t ∧
      t.advertised = (start.run start.refusal).advertised := by
  have hstart : (rotator? (.ofDays 30)).any fun start =>
      let s := start.run start.refusal
      s.numbers = (1, some 1) ∧
        (s.failedRotation?.map (·.1)) = some (.bundleRejected ⟨"alice", 1⟩) ∧
        s.directory.faults[s.messenger.address.account]? = none ∧
        s.messenger.address.account ∉ s.directory.failingAccounts ∧
        (s.now.add? s.messenger.settings.gracePeriod).isSome := by
    decide +kernel
  obtain ⟨start, hsome, hp⟩ := (Option.any_eq_true _ _).mp hstart
  obtain ⟨hnumbers, hfails, hfault, hfailing, hgrace⟩ := of_decide_eq_true hp
  obtain ⟨⟨err, numbers⟩, hfailed, rfl⟩ := Option.map_eq_some_iff.mp hfails
  obtain ⟨t, ht, -⟩ := exists_of_failedRotation hfailed
  have hprovisioned := provisioned_of_joining hsome
  exact ⟨start, t, hprovisioned, hnumbers, ht,
    advertised_of_failed_rotation hprovisioned _ ⟨⟨hfault, hfailing⟩, hgrace⟩ (.inl ht)⟩

/-- When the own account cannot be looked up, a rotation fails with the new key published and the
old one in use. -/
theorem numbers_of_outage :
    ∃ start t, Provisioned start ∧ (start.run start.outage).numbers = (1, some 1) ∧
      Messenger.rotate (start.run start.outage) = .error (.lookupFailed "alice") t ∧
      t.numbers = (1, some 2) := by
  have hstart : (rotator? (.ofDays 30)).any fun start =>
      let s := start.run start.outage
      s.numbers = (1, some 1) ∧ s.failedRotation? = some (.lookupFailed "alice", 1, some 2) := by
    decide +kernel
  obtain ⟨start, hsome, hp⟩ := (Option.any_eq_true _ _).mp hstart
  obtain ⟨hnumbers, hfailed⟩ := of_decide_eq_true hp
  obtain ⟨t, ht, hnumbers'⟩ := exists_of_failedRotation hfailed
  exact ⟨start, t, provisioned_of_joining hsome, hnumbers, ht, hnumbers'⟩

/-- When the grace period leads out of the range of times, a rotation fails with the new key
published and in use. -/
theorem numbers_of_endless_grace :
    ∃ start t, Provisioned start ∧ (start.run [.publishBundle]).numbers = (1, some 1) ∧
      Messenger.rotate (start.run [.publishBundle]) = .error .graceOutOfRange t ∧
      t.numbers = (2, some 2) := by
  have hstart : (rotator? (.ofSeconds (2 ^ 64 - 1))).any fun start =>
      let s := start.run [.publishBundle]
      s.numbers = (1, some 1) ∧ s.failedRotation? = some (.graceOutOfRange, 2, some 2) := by
    decide +kernel
  obtain ⟨start, hsome, hp⟩ := (Option.any_eq_true _ _).mp hstart
  obtain ⟨hnumbers, hfailed⟩ := of_decide_eq_true hp
  obtain ⟨t, ht, hnumbers'⟩ := exists_of_failedRotation hfailed
  exact ⟨start, t, provisioned_of_joining hsome, hnumbers, ht, hnumbers'⟩

end Example

end Scene

end MultiDevice
