import MultiDevice.Proofs.Directory
import MultiDevice.Proofs.Entries
import MultiDevice.Proofs.Key.PreKeys
import MultiDevice.Proofs.Messenger.Request

/-!
# What upkeep does to pre-keys and bundles

A bundle is published from the pre-keys of a device, and the device keeps what the bundle refers to:
upkeep gives out new numbers and drops keys, and never puts another key under an old number.

## Main definitions

* `Task`: upkeep that a device does, and trust decisions
* `Offers`: a bundle whose keys are backed by what a device keeps
* `Tended`: a scene that upkeep, or whatever leaves the sessions alone, makes of another

## Main results

* `Task.perform_tended`: every task leaves a tended scene, whether it succeeds or fails
* `Messenger.exists_of_provision`: the pre-keys of a device that was just set up
-/

namespace MultiDevice

/-- Upkeep that a device does, and trust decisions. -/
inductive Task where
  /-- Records a trust decision on a device. -/
  | decideTrust (device : DeviceAddress) (state : TrustState)
  /-- Publishes the bundle. -/
  | publishBundle
  /-- Publishes the bundle if it has to be. -/
  | publishIfNeeded
  /-- Publishes a device list without the other devices. -/
  | purgeDevices
  /-- Rotates the signed pre-key. -/
  | rotate
  /-- Rotates the signed pre-key if it is old enough. -/
  | rotateIfDue
  /-- Drops the signed pre-keys whose time has come. -/
  | prune
  deriving DecidableEq

namespace Task

/-- The request for a task. -/
def request : Task → Request
  | decideTrust device state => .decideTrust device state
  | publishBundle => .publishBundle
  | publishIfNeeded => .publishIfNeeded
  | purgeDevices => .purgeDevices
  | rotate => .rotate
  | rotateIfDue => .rotateIfDue
  | prune => .prune

/-- How many signed pre-keys a task may make. -/
def makes : Task → Nat
  | rotate => 1
  | rotateIfDue => 1
  | _ => 0

end Task

variable [CipherSuite] {e₀ : Entropy} {stop n : Nat} {base s : Scene} {b : DeviceBundle}

/-- A bundle of a device: its identity, a signed pre-key backed by its ring and, while `full` holds,
one-time pre-keys that are all in its pool. -/
structure Offers (e₀ : Entropy) (stop : Nat) (st : Store) (full : Prop) (b : DeviceBundle) :
    Prop where
  identity : b.identity = st.identity.publicKey
  signed : st.signedPreKeys.Backs e₀ stop b.signedPreKey
  oneTime : full → ∀ (id : UInt32) (key : PublicKey), b.oneTimePreKeys[id]? = some key →
    ∃ k, st.oneTimePreKeys.get? id = some k ∧ k.publicKey = key

theorem Offers.mono {st st' : Store} {full full' : Prop} {stop' : Nat}
    (h : Offers e₀ stop st full b) (hi : st'.identity = st.identity)
    (hr : st.signedPreKeys.Later st'.signedPreKeys) (hle : stop ≤ stop')
    (hp : full' → full ∧ st'.oneTimePreKeys = st.oneTimePreKeys) :
    Offers e₀ stop' st' full' b := by
  refine ⟨?_, h.signed.later hr hle, fun hf id key hk => ?_⟩
  · rw [hi]
    exact h.identity
  · obtain ⟨hf, hpool⟩ := hp hf
    rw [hpool]
    exact h.oneTime hf id key hk

theorem Offers.handsOut {st : Store} {full : Prop} {b' : DeviceBundle}
    (h : Offers e₀ stop st full b) (hb : b.HandsOut b') : Offers e₀ stop st full b' := by
  refine ⟨?_, ?_, fun hf id key hk => h.oneTime hf id key (hb.oneTime id key hk)⟩
  · rw [show b'.identity = b.identity from congrArg Credentials.identity hb.credentials]
    exact h.identity
  · rw [show b'.signedPreKey = b.signedPreKey from congrArg Credentials.signedPreKey hb.credentials]
    exact h.signed

/-- The pool of a messenger is full. -/
def Messenger.PoolFull (m : Messenger) : Prop :=
  m.settings.maxOneTimePreKeys ≤ m.store.oneTimePreKeys.count

/-- What upkeep, or whatever leaves the sessions alone, makes of a scene with at most `n` new signed
pre-keys. -/
structure Tended (e₀ : Entropy) (n : Nat) (base s : Scene) : Prop where
  address : s.messenger.address = base.messenger.address
  settings : s.messenger.settings = base.messenger.settings
  identity : s.messenger.store.identity = base.messenger.store.identity
  sessions : s.messenger.store.sessions = base.messenger.store.sessions
  entropy : Entropy.Later base.entropy s.entropy
  ring : s.messenger.store.signedPreKeys.Genuine e₀ s.entropy.drawn
  later : base.messenger.store.signedPreKeys.Later s.messenger.store.signedPreKeys
  nextId : s.messenger.store.signedPreKeys.nextId.toNat ≤
    base.messenger.store.signedPreKeys.nextId.toNat + n
  pool : base.messenger.PoolFull →
    s.messenger.store.oneTimePreKeys = base.messenger.store.oneTimePreKeys
  bundles : ∀ (d : DeviceAddress) (b : DeviceBundle), s.directory.bundles[d]? = some b →
    (∃ b', base.directory.bundles[d]? = some b' ∧ b'.HandsOut b) ∨
      d = base.messenger.address ∧
        Offers e₀ s.entropy.drawn s.messenger.store base.messenger.PoolFull b

namespace Tended

theorem refl (h : base.messenger.store.signedPreKeys.Genuine e₀ base.entropy.drawn) :
    Tended e₀ n base base where
  address := rfl
  settings := rfl
  identity := rfl
  sessions := rfl
  entropy := .refl _
  ring := h
  later := .refl _
  nextId := Nat.le_add_right _ _
  pool _ := rfl
  bundles _ b hb := .inl ⟨b, hb, .refl b⟩

theorem setNeedsPublishing (h : Tended e₀ n base s) (b : Bool) :
    Tended e₀ n base (s.setNeedsPublishing b) :=
  ⟨h.address, h.settings, h.identity, h.sessions, h.entropy, h.ring, h.later, h.nextId, h.pool,
    h.bundles⟩

theorem setPendingRotation (h : Tended e₀ n base s) (id : Option UInt32) :
    Tended e₀ n base (s.setPendingRotation id) :=
  ⟨h.address, h.settings, h.identity, h.sessions, h.entropy, h.ring, h.later, h.nextId, h.pool,
    h.bundles⟩

theorem setTrust (h : Tended e₀ n base s) (trust : TrustTable) :
    Tended e₀ n base (s.setStore { s.messenger.store with trust }) :=
  ⟨h.address, h.settings, h.identity, h.sessions, h.entropy, h.ring, h.later, h.nextId, h.pool,
    fun d b hb => (h.bundles d b hb).imp_right
      fun ⟨hd, ho⟩ => ⟨hd, ho.identity, ho.signed, ho.oneTime⟩⟩

/-- A change of the directory that adds no bundle but an offer of the device. -/
theorem setDirectory (h : Tended e₀ n base s) {directory : Directory}
    (hb : ∀ (d : DeviceAddress) (b : DeviceBundle), directory.bundles[d]? = some b →
      (∃ b', s.directory.bundles[d]? = some b' ∧ b'.HandsOut b) ∨ d = s.messenger.address ∧
        Offers e₀ s.entropy.drawn s.messenger.store base.messenger.PoolFull b) :
    Tended e₀ n base (s.setDirectory directory) := by
  refine ⟨h.address, h.settings, h.identity, h.sessions, h.entropy, h.ring, h.later, h.nextId,
    h.pool, fun d b hd => ?_⟩
  rcases hb d b hd with ⟨b', hd, hb'⟩ | ⟨hd, ho⟩
  · rcases h.bundles d b' hd with ⟨b'', hd, hb''⟩ | ⟨hd, ho⟩
    · exact .inl ⟨b'', hd, hb''.trans hb'⟩
    · exact .inr ⟨hd, ho.handsOut hb'⟩
  · exact .inr ⟨hd.trans h.address, ho⟩

/-- New randomness and a pool filled up, unless it was full at first. -/
theorem setPool (h : Tended e₀ n base s) {oneTimePreKeys : OneTimePreKeyPool} {e : Entropy}
    (he : Entropy.Later s.entropy e)
    (hp : s.messenger.PoolFull → oneTimePreKeys = s.messenger.store.oneTimePreKeys) :
    Tended e₀ n base
      { s.setStore { s.messenger.store with oneTimePreKeys } with entropy := e } := by
  have hpool : base.messenger.PoolFull → oneTimePreKeys = base.messenger.store.oneTimePreKeys := by
    intro hf
    refine (hp ?_).trans (h.pool hf)
    unfold Messenger.PoolFull
    rw [h.settings, h.pool hf]
    exact hf
  refine ⟨h.address, h.settings, h.identity, h.sessions, h.entropy.trans he, h.ring.mono he.drawn,
    h.later, h.nextId, hpool, fun d b hb => ?_⟩
  rcases h.bundles d b hb with hb | ⟨hd, ho⟩
  · exact .inl hb
  · refine .inr ⟨hd, ho.mono rfl (.refl _) he.drawn fun hf => ⟨hf, ?_⟩⟩
    exact (hpool hf).trans (h.pool hf).symm

/-- A ring that lost some of its keys. -/
theorem setRing (h : Tended e₀ n base s) {signedPreKeys : SignedPreKeyRing} {e : Entropy}
    (hr : s.messenger.store.signedPreKeys.Drops signedPreKeys) (he : Entropy.Later s.entropy e) :
    Tended e₀ n base
      { s.setStore { s.messenger.store with signedPreKeys } with entropy := e } := by
  refine ⟨h.address, h.settings, h.identity, h.sessions, h.entropy.trans he,
    hr.genuine (h.ring.mono he.drawn), h.later.trans hr.later, ?_, h.pool, fun d b hb => ?_⟩
  · exact hr.nextId.symm ▸ h.nextId
  · rcases h.bundles d b hb with hb | ⟨hd, ho⟩
    · exact .inl hb
    · exact .inr ⟨hd, ho.mono rfl hr.later he.drawn fun hf => ⟨hf, rfl⟩⟩

theorem setEntropy (h : Tended e₀ n base s) {e : Entropy} (he : Entropy.Later s.entropy e) :
    Tended e₀ n base { s with entropy := e } := h.setRing (.refl _) he

end Tended

namespace Messenger

/-! ## Publishing -/

theorem fillPool_tended (q : SignedPreKeyRing → Prop) :
    Ensures (fun s => Tended e₀ n base s ∧ q s.messenger.store.signedPreKeys) fillPool
      (fun _ s => Tended e₀ n base s ∧ q s.messenger.store.signedPreKeys) (Tended e₀ n base) := by
  refine Ensures.get_bind fun s hs => ?_
  dsimp only
  split
  · have hfill : Ensures (fun t => t = s)
        (Action.onStore (Store.replenish s.messenger.settings.maxOneTimePreKeys))
        (fun _ s => Tended e₀ n base s ∧ q s.messenger.store.signedPreKeys)
        (Tended e₀ n base) := ?_
    · exact hfill.bind fun _ => Ensures.pure fun _ h => h
    rintro s rfl
    have hlater := OneTimePreKeyPool.replenish_later s.messenger.settings.maxOneTimePreKeys
      s.messenger.store.oneTimePreKeys s.entropy
    have hfull : s.messenger.PoolFull →
        (endState (OneTimePreKeyPool.replenish s.messenger.settings.maxOneTimePreKeys)
          (s.messenger.store.oneTimePreKeys, s.entropy)).1 = s.messenger.store.oneTimePreKeys := by
      intro hf
      rw [endState_of_ok (OneTimePreKeyPool.replenish_of_le hf s.entropy)]
    cases h : OneTimePreKeyPool.replenish s.messenger.settings.maxOneTimePreKeys
        (s.messenger.store.oneTimePreKeys, s.entropy) with
    | ok added t =>
      rw [endState_of_ok h] at hlater hfull
      have hs' := hs.1.setPool hlater hfull
      simp only [Action.onStore, Store.replenish, h]
      exact ⟨hs', hs.2⟩
    | error err t =>
      rw [endState_of_error h] at hlater hfull
      have hs' := hs.1.setPool hlater hfull
      simp only [Action.onStore, Store.replenish, h]
      exact hs'
  · rintro s rfl
    exact hs

theorem publishDevices_tended (devices : List Advertisement) :
    Ensures (Tended e₀ n base) (publishDevices devices) (fun _ => Tended e₀ n base)
      (Tended e₀ n base) := by
  refine Ensures.get_bind fun s hs => ?_
  have hpublish : Ensures (fun t => t = s) (Action.ofExcept
      (s.directory.publishDeviceList s.messenger.address.account devices))
      (fun d t => t = s ∧ d.bundles = s.directory.bundles) (Tended e₀ n base) := by
    refine Ensures.ofExcept (fun d t hd ht => ⟨ht, ?_⟩) fun t ht => ht ▸ hs
    unfold Directory.publishDeviceList at hd
    split at hd
    · cases hd
    · cases hd
      rfl
  refine hpublish.bind fun d => Ensures.modify ?_
  rintro s ⟨rfl, hd⟩
  exact hs.setDirectory fun d' b hb => .inl ⟨b, hd ▸ hb, .refl b⟩

theorem ensureListed_tended :
    Ensures (Tended e₀ n base) ensureListed (fun _ => Tended e₀ n base) (Tended e₀ n base) := by
  refine Ensures.get_bind fun s hs => ?_
  have hlist : Ensures (fun t => t = s)
      (Action.ofExcept (s.directory.listDevices s.messenger.address.account))
      (fun _ => Tended e₀ n base) (Tended e₀ n base) :=
    Ensures.ofExcept (fun _ t _ ht => ht ▸ hs) fun t ht => ht ▸ hs
  refine hlist.bind fun devices => ?_
  split
  · exact Ensures.pure fun _ h => h
  · exact publishDevices_tended _

theorem purgeDevices_tended :
    Ensures (Tended e₀ n base) purgeDevices (fun _ => Tended e₀ n base) (Tended e₀ n base) :=
  Ensures.get_bind fun _ hs => (publishDevices_tended _).weaken fun _ ht => ht ▸ hs

theorem submitBundle_tended (b : DeviceBundle) :
    Ensures (fun s => Tended e₀ n base s ∧
        Offers e₀ s.entropy.drawn s.messenger.store base.messenger.PoolFull b) (submitBundle b)
      (fun _ => Tended e₀ n base) (Tended e₀ n base) := by
  refine Ensures.get_bind fun s ⟨hs, ho⟩ => ?_
  cases h : s.directory.publishBundle s.messenger.address b with
  | ok d =>
    rintro s rfl
    refine Tended.setDirectory (hs.setNeedsPublishing false) fun device b' hb => ?_
    unfold Directory.publishBundle at h
    split at h
    · cases h
    · cases h
      rcases Entries.of_insert hb with ⟨hdevice, rfl⟩ | ⟨-, hb⟩
      · exact .inr ⟨hdevice, ho⟩
      · exact .inl ⟨b', hb, .refl b'⟩
  | error err =>
    rintro s rfl
    exact hs.setNeedsPublishing true

/-- What is published with a signed pre-key that is kept is backed by the store. -/
theorem publishWith_tended (signed : SignedPreKey) :
    Ensures (fun s => Tended e₀ n base s ∧
        s.messenger.store.signedPreKeys.keys[signed.id]? = some signed) (publishWith signed)
      (fun _ => Tended e₀ n base) (Tended e₀ n base) := by
  refine (fillPool_tended (fun r => r.keys[signed.id]? = some signed)).bind fun _ => ?_
  refine Ensures.get_bind fun s ⟨hs, hk⟩ => ?_
  refine ((submitBundle_tended (bundle s.messenger.store signed)).weaken ?_).bind fun _ =>
    ensureListed_tended
  rintro s rfl
  refine ⟨hs, rfl, hs.ring.backs hk, fun _ id key hkey => ?_⟩
  change (s.messenger.store.oneTimePreKeys.keys.map fun _ k => k.publicKey)[id]? = some key at hkey
  rw [Std.ExtTreeMap.getElem?_map] at hkey
  obtain ⟨k, hget, rfl⟩ := Option.map_eq_some_iff.mp hkey
  exact ⟨k, hget, rfl⟩

theorem ensures_current :
    Ensures (Tended e₀ n base)
      (do Action.ofExcept (← get).messenger.store.signedPreKeys.current?)
      (fun key s => Tended e₀ n base s ∧ s.messenger.store.signedPreKeys.keys[key.id]? = some key)
      (Tended e₀ n base) := by
  refine Ensures.get_bind fun s hs => Ensures.ofExcept ?_ fun _ ht => ht ▸ hs
  rintro key s hk rfl
  refine ⟨hs, ?_⟩
  unfold SignedPreKeyRing.current? at hk
  cases hc : s.messenger.store.signedPreKeys.keys[s.messenger.store.signedPreKeys.current]? with
  | none =>
    rw [hc] at hk
    cases hk
  | some key' =>
    rw [hc] at hk
    cases hk
    rw [hs.ring.id_eq _ _ hc]
    exact hc

theorem publishBundle_tended :
    Ensures (Tended e₀ n base) publishBundle (fun _ => Tended e₀ n base) (Tended e₀ n base) :=
  ensures_current.bind publishWith_tended

theorem publishIfNeeded_tended :
    Ensures (Tended e₀ n base) publishIfNeeded (fun _ => Tended e₀ n base) (Tended e₀ n base) := by
  refine Ensures.get_bind fun s hs => ?_
  split
  · exact (publishBundle_tended.weaken fun _ ht => ht ▸ hs).bind fun _ => Ensures.pure fun _ h => h
  · exact Ensures.pure fun _ ht => ht ▸ hs

/-! ## Rotating -/

/-- The signed pre-key that a rotation takes up is kept. -/
theorem nextSignedPreKey_tended
    (hr : base.messenger.store.signedPreKeys.Genuine e₀ base.entropy.drawn)
    (he : Entropy.Later e₀ base.entropy)
    (hroom : base.messenger.store.signedPreKeys.nextId.toNat + 1 < UInt32.size) :
    Ensures (fun s => s = base) nextSignedPreKey
      (fun key s => Tended e₀ 1 base s ∧ s.messenger.store.signedPreKeys.keys[key.id]? = some key)
      (Tended e₀ 1 base) := by
  refine Ensures.get_bind ?_
  rintro s rfl
  split
  · next key hk =>
    refine Ensures.pure ?_
    rintro s rfl
    obtain ⟨id, -, hk⟩ := Option.bind_eq_some_iff.mp hk
    refine ⟨.refl hr, ?_⟩
    rw [hr.id_eq id key hk]
    exact hk
  · refine Ensures.changeStore ?_ ?_
    · rintro s key st e rfl hc
      obtain ⟨⟨key', r⟩, t, hcreate, hst⟩ := bind_eq_ok_iff.mp hc
      cases hst
      obtain ⟨hlater, hgenuine, hring, hkey, hnext⟩ :=
        SignedPreKeyRing.create_later hr he hroom hcreate
      exact ⟨⟨rfl, rfl, rfl, rfl, hlater, hgenuine, hring, Nat.le_of_eq hnext, fun _ => rfl,
        fun _ b hb => .inl ⟨b, hb, .refl b⟩⟩, hkey⟩
    · rintro s err e rfl hc
      exact (Tended.refl hr).setRing (.refl _) ((Store.createSignedPreKey_advances _ _).of_error hc)

/-- A change of the ring that only drops keys is upkeep. -/
theorem dropKeys_tended {α : Type} {f : Store → Draw (α × Store)}
    (hf : ∀ st, Draw.Advances (f st))
    (hdrops : ∀ st a st' e e', f st e = .ok (a, st') e' → ∃ signedPreKeys,
      st' = { st with signedPreKeys } ∧ st.signedPreKeys.Drops signedPreKeys) :
    Ensures (Tended e₀ n base) (Action.changeStore f) (fun _ => Tended e₀ n base)
      (Tended e₀ n base) := by
  refine Ensures.changeStore (fun s a st e hs h => ?_) fun s err e hs h => ?_
  · obtain ⟨signedPreKeys, rfl, hr⟩ := hdrops _ _ _ _ _ h
    exact hs.setRing hr ((hf _).of_ok h)
  · exact hs.setRing (.refl _) ((hf _).of_error h)

theorem promote_tended (id : UInt32) :
    Ensures (Tended e₀ n base) (promote id) (fun _ => Tended e₀ n base) (Tended e₀ n base) := by
  refine dropKeys_tended (fun st => Draw.Advances.ofExcept _) fun st a st' e e' h => ?_
  obtain ⟨hp, -⟩ := Draw.ofExcept_eq_ok_iff.mp h
  obtain ⟨signedPreKeys, hr, rfl⟩ := Store.exists_of_promoteSignedPreKey hp
  exact ⟨signedPreKeys, rfl, SignedPreKeyRing.promote_drops hr⟩

theorem scheduleExpiry_tended (id : UInt32) :
    Ensures (Tended e₀ n base) (scheduleExpiry id) (fun _ => Tended e₀ n base)
      (Tended e₀ n base) := by
  refine Ensures.get_bind fun s hs => ?_
  split
  · exact Ensures.throw fun _ ht => ht ▸ hs
  · refine (dropKeys_tended (fun st => (Draw.Advances.ofExcept _).bind fun _ =>
      Draw.Advances.pure _) fun st a st' e e' h => ?_).weaken fun _ ht => ht ▸ hs
    obtain ⟨st'', t, hx, h⟩ := bind_eq_ok_iff.mp h
    obtain ⟨hexpire, -⟩ := Draw.ofExcept_eq_ok_iff.mp hx
    cases h
    obtain ⟨signedPreKeys, hr, rfl⟩ := Store.exists_of_expireSignedPreKey hexpire
    exact ⟨signedPreKeys, rfl, SignedPreKeyRing.expire_drops hr⟩

theorem prune_tended :
    Ensures (Tended e₀ n base) prune (fun _ => Tended e₀ n base) (Tended e₀ n base) := by
  refine Ensures.get_bind fun s hs => ?_
  refine (dropKeys_tended (fun st => Draw.Advances.pure _)
    fun st a st' e e' h => ?_).weaken fun _ ht => ht ▸ hs
  cases h
  exact ⟨_, rfl, st.signedPreKeys.purge_drops s.now⟩

/-- A rotation makes at most one new signed pre-key. -/
theorem rotate_tended
    (hr : base.messenger.store.signedPreKeys.Genuine e₀ base.entropy.drawn)
    (he : Entropy.Later e₀ base.entropy)
    (hroom : base.messenger.store.signedPreKeys.nextId.toNat + 1 < UInt32.size) :
    Ensures (fun s => s = base) rotate (fun _ => Tended e₀ 1 base) (Tended e₀ 1 base) := by
  refine (nextSignedPreKey_tended hr he hroom).bind fun next => ?_
  have hpending : Ensures (fun s => Tended e₀ 1 base s ∧
        s.messenger.store.signedPreKeys.keys[next.id]? = some next)
      (modify fun s => s.setPendingRotation (some next.id) : Action PUnit)
      (fun _ s => Tended e₀ 1 base s ∧ s.messenger.store.signedPreKeys.keys[next.id]? = some next)
      (Tended e₀ 1 base) :=
    Ensures.modify fun s hs => ⟨hs.1.setPendingRotation _, hs.2⟩
  have hdone : Ensures (Tended e₀ 1 base) (modify fun s => s.setPendingRotation none : Action PUnit)
      (fun _ => Tended e₀ 1 base) (Tended e₀ 1 base) :=
    Ensures.modify fun s hs => hs.setPendingRotation none
  have hpruned : Ensures (Tended e₀ 1 base) (prune >>= fun _ => (pure next.id : Action UInt32))
      (fun _ => Tended e₀ 1 base) (Tended e₀ 1 base) :=
    prune_tended.bind fun _ => Ensures.pure fun _ hs => hs
  refine hpending.bind fun _ => (publishWith_tended next).bind fun _ => ?_
  refine (promote_tended _).bind fun previous => hdone.bind fun _ => ?_
  cases previous with
  | some id => exact (scheduleExpiry_tended id).bind fun _ => hpruned
  | none => exact hpruned

theorem rotateIfDue_tended
    (hr : base.messenger.store.signedPreKeys.Genuine e₀ base.entropy.drawn)
    (he : Entropy.Later e₀ base.entropy)
    (hroom : base.messenger.store.signedPreKeys.nextId.toNat + 1 < UInt32.size) :
    Ensures (fun s => s = base) rotateIfDue (fun _ => Tended e₀ 1 base) (Tended e₀ 1 base) := by
  refine Ensures.get_bind ?_
  rintro s rfl
  have hcurrent : Ensures (fun t => t = s)
      (Action.ofExcept s.messenger.store.signedPreKeys.current?) (fun _ t => t = s)
      (Tended e₀ 1 s) :=
    Ensures.ofExcept (fun _ _ _ ht => ht) fun t ht => ht.symm ▸ .refl hr
  refine hcurrent.bind fun current => ?_
  dsimp only
  split
  · exact Ensures.pure fun t ht => ht.symm ▸ .refl hr
  · exact (rotate_tended hr he hroom).bind fun id => Ensures.pure fun _ hs => hs

end Messenger

/-- Every task leaves a tended scene, whether it succeeds or fails. -/
theorem Task.perform_tended (task : Task)
    (hr : base.messenger.store.signedPreKeys.Genuine e₀ base.entropy.drawn)
    (he : Entropy.Later e₀ base.entropy)
    (hroom : base.messenger.store.signedPreKeys.nextId.toNat + task.makes < UInt32.size) :
    Tended e₀ task.makes base (task.request.perform base) := by
  have hbase : Tended e₀ task.makes base base := .refl hr
  cases task with
  | decideTrust device state => exact hbase.setTrust _
  | publishBundle => exact Messenger.publishBundle_tended.endState (fun _ _ h => h) hbase
  | publishIfNeeded => exact Messenger.publishIfNeeded_tended.endState (fun _ _ h => h) hbase
  | purgeDevices => exact Messenger.purgeDevices_tended.endState (fun _ _ h => h) hbase
  | rotate => exact (Messenger.rotate_tended hr he hroom).endState (fun _ _ h => h) rfl
  | rotateIfDue => exact (Messenger.rotateIfDue_tended hr he hroom).endState (fun _ _ h => h) rfl
  | prune => exact Messenger.prune_tended.endState (fun _ _ h => h) hbase

omit [CipherSuite] in
/-- The pre-keys of a device that was just set up. -/
theorem Messenger.exists_of_provision {address : DeviceAddress} {settings : Settings} {now : Time}
    {e e' : Entropy} {m : Messenger} (he : Entropy.Later e₀ e)
    (h : Messenger.provision address settings now e = .ok m e') :
    Entropy.Later e e' ∧ m.address = address ∧ m.settings = settings ∧ m.store.sessions = ∅ ∧
      e.Drew e'.drawn m.store.identity.secret ∧ m.store.signedPreKeys.Genuine e₀ e'.drawn ∧
      m.store.signedPreKeys.nextId.toNat = 2 ∧
      (settings.maxOneTimePreKeys < UInt32.size → m.PoolFull) := by
  obtain ⟨store, hs, rfl⟩ := Messenger.provision_eq_ok_iff.mp h
  obtain ⟨pool, e₁, identity, e₂, ring, hpool, hidentity, hring, rfl⟩ :=
    Store.provision_eq_ok_iff.mp hs
  obtain ⟨rfl, rfl⟩ := IdentityKey.eq_of_generate hidentity
  obtain ⟨hlater₁, hcount⟩ := Store.newPool_eq_ok hpool
  have hlater₂ := hlater₁.trans e₁.later_next
  obtain ⟨hlater₃, hgenuine, hnext⟩ :=
    SignedPreKeyRing.startingAt_genuine (by decide) (he.trans hlater₂) hring
  refine ⟨hlater₂.trans hlater₃, rfl, rfl, rfl, ?_, hgenuine, hnext, fun hlt => ?_⟩
  · exact hlater₁.drew_next.mono hlater₃.drawn
  · exact Nat.le_of_eq (hcount hlt).symm

end MultiDevice
