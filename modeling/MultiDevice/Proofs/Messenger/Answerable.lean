import MultiDevice.Proofs.Messenger.Counting
import MultiDevice.Proofs.Messenger.Traffic

/-!
# Bundles that can be answered

A messenger whose bundle needs no publishing can answer whoever starts a session from the bundle
that the directory has: the keys in it are the public halves of keys that the device keeps. This
holds wherever a rotation, a publication or a new start stopped halfway. It rests on numbers that
are not given out twice: the device makes fewer keys than there are numbers.

## Main definitions

* `Scene.Answers`: the device keeps what a bundle refers to
* `Scene.Orderly`: what makes a bundle that needs no publishing answerable, in every scene

## Main results

* `Chore.orderly`, `Restart.orderly`, `Traffic.orderly`: what upkeep and traffic keep
* `Scene.exists_answerable`: the bundle of a device that needs no publishing
-/

namespace MultiDevice

section Answerable

variable [CipherSuite] {s t : Scene} {n : Nat}

/-- The device keeps what a bundle refers to. -/
structure Scene.Answers (s : Scene) (b : DeviceBundle) : Prop where
  signed : ∃ key, s.Chooses key ∧
    b.toCredentials = (Messenger.bundle s.messenger.store key).toCredentials
  oneTime : ∀ (id : UInt32) (key : PublicKey), b.oneTimePreKeys[id]? = some key →
    ∃ k, s.messenger.store.oneTimePreKeys.keys[id]? = some k ∧ k.publicKey = key

/-- The numbers given out are in order, the signed pre-key of an unfinished rotation is not to be
dropped, and a bundle that needs no publishing is there and can be answered. -/
structure Scene.Orderly (n : Nat) (s : Scene) : Prop where
  pool : ∃ given ≤ n, s.messenger.store.oneTimePreKeys.Numbered given
  ring : s.messenger.store.signedPreKeys.Numbered n
  pending : ∀ id, s.messenger.pendingRotation = some id →
    id ∉ s.messenger.store.signedPreKeys.expiries
  answers : s.messenger.needsPublishing = false →
    ∃ b, s.directory.bundles[s.messenger.address]? = some b ∧ s.Answers b

namespace Scene

/-- What is left of a bundle after some of it was handed out can be answered as before. -/
theorem Answers.handsOut {b b' : DeviceBundle} (h : s.Answers b) (hb : b.HandsOut b') :
    s.Answers b' := by
  obtain ⟨key, hkey, hc⟩ := h.signed
  exact ⟨⟨key, hkey, hb.credentials.trans hc⟩,
    fun id key hk => h.oneTime id key (hb.oneTime id key hk)⟩

/-- A bundle can be answered as long as its signed pre-key is chosen and its one-time pre-keys are
kept. -/
theorem Answers.of_store {b : DeviceBundle} (h : s.Answers b)
    (hidentity : t.messenger.store.identity = s.messenger.store.identity)
    (hsigned : ∀ key, s.Chooses key → b.signedPreKey.id = key.id → t.Chooses key)
    (hpool : ∀ (id : UInt32) (k : OneTimePreKey),
      s.messenger.store.oneTimePreKeys.keys[id]? = some k →
        t.messenger.store.oneTimePreKeys.keys[id]? = some k) : t.Answers b := by
  obtain ⟨key, hkey, hc⟩ := h.signed
  have hid : b.signedPreKey.id = key.id := congrArg (fun c => c.signedPreKey.id) hc
  refine ⟨⟨key, hsigned key hkey hid, ?_⟩, fun id key hk => ?_⟩
  · rw [hc]
    unfold Messenger.bundle
    rw [hidentity]
  · obtain ⟨k, hk, hpublic⟩ := h.oneTime id key hk
    exact ⟨k, hpool id k hk, hpublic⟩

/-- The bundle of a device can be answered. -/
theorem answers_bundle {signed : SignedPreKey} (h : s.Chooses signed) :
    s.Answers (Messenger.bundle s.messenger.store signed) := by
  refine ⟨⟨signed, h, rfl⟩, fun id key hk => ?_⟩
  change (s.messenger.store.oneTimePreKeys.keys.map _)[id]? = some key at hk
  rw [Std.ExtTreeMap.getElem?_map] at hk
  exact Option.map_eq_some_iff.mp hk

end Scene

/-! ## What upkeep keeps -/

open Scene (Orderly)

/-- What does not touch the pre-keys keeps a bundle answerable. -/
theorem Scene.Orderly.of_store (h : s.Orderly n)
    (hstore : t.messenger.store = s.messenger.store)
    (hpending : t.messenger.pendingRotation = s.messenger.pendingRotation)
    (hanswers : t.messenger.needsPublishing = false →
      ∃ b, t.directory.bundles[t.messenger.address]? = some b ∧ s.Answers b) : t.Orderly n := by
  refine ⟨hstore ▸ h.pool, hstore ▸ h.ring, fun id hid => ?_, fun hclean => ?_⟩
  · rw [hstore]
    exact h.pending id (hpending ▸ hid)
  · obtain ⟨b, hb, ha⟩ := hanswers hclean
    refine ⟨b, hb, ha.of_store (by rw [hstore]) (fun key hkey _ => ⟨?_, ?_⟩) fun id k hk => ?_⟩
    · rw [hstore]
      exact hkey.kept
    · rw [hstore, hpending]
      exact hkey.used
    · rw [hstore]
      exact hk

theorem Scene.Orderly.mono {n' : Nat} (h : s.Orderly n) (hle : n ≤ n') : s.Orderly n' := by
  obtain ⟨given, hgiven, hpool⟩ := h.pool
  exact ⟨⟨given, Nat.le_trans hgiven hle, hpool⟩, h.ring.mono hle, h.pending, h.answers⟩

/-- Filling up the pool keeps every key under its number. -/
theorem Scene.Orderly.refill (h : s.Orderly n) (target : Nat)
    (hroom : n + ((s.refill target).entropy.drawn - s.entropy.drawn) < UInt32.size) :
    (s.refill target).Orderly (n + ((s.refill target).entropy.drawn - s.entropy.drawn)) := by
  obtain ⟨given, hle, hpool⟩ := h.pool
  have hextends := OneTimePreKeyPool.replenish_extends (e := s.entropy) target hpool
    (Nat.lt_of_le_of_lt (Nat.add_le_add_right hle _) hroom)
  refine ⟨⟨_, Nat.add_le_add_right hle _, hextends.numbered⟩,
    h.ring.mono (Nat.le_add_right _ _), h.pending, fun hclean => ?_⟩
  obtain ⟨b, hb, ha⟩ := h.answers hclean
  exact ⟨b, hb, ha.of_store rfl (fun key hkey _ => ⟨hkey.kept, hkey.used⟩) fun id k hk =>
    hextends.getElem? hpool hk⟩

/-- A new signed pre-key takes a number under which nothing is scheduled, and the bundle does not
refer to an unfinished rotation when it is made. -/
theorem Scene.Orderly.create (h : s.Orderly n) (hroom : n + 1 < UInt32.size) {key : SignedPreKey}
    {r : SignedPreKeyRing} {e : Entropy}
    (hnone : s.messenger.pendingRotation.bind s.messenger.store.signedPreKeys.get? = none)
    (hr : s.messenger.store.signedPreKeys.create s.now s.entropy = .ok (key, r) e) :
    (({ s.setStore { s.messenger.store with signedPreKeys := r } with
      entropy := e } : Scene).setPendingRotation (some key.id)).Orderly (n + 1) := by
  obtain ⟨hring, hid, hcurrent, hexpiries, hkeys⟩ := h.ring.create hroom hr
  obtain ⟨given, hle, hpool⟩ := h.pool
  refine ⟨⟨given, Nat.le_succ_of_le hle, hpool⟩, hring, ?_, fun hclean => ?_⟩
  · intro id hpending hexpiry
    cases hpending
    change key.id ∈ r.expiries at hexpiry
    rw [hexpiries, hid] at hexpiry
    exact Nat.lt_irrefl _ (h.ring.expiry_lt _ hexpiry)
  · obtain ⟨b, hb, ha⟩ := h.answers hclean
    refine ⟨b, hb, ha.of_store rfl (fun key hkey _ => ?_) fun id k hk => hk⟩
    refine ⟨hkeys _ _ hkey.kept, ?_⟩
    rcases hkey.used with hused | hpending
    · exact .inl (hcurrent.trans hused)
    · rw [hpending] at hnone
      exact absurd (hkey.kept.symm.trans hnone) nofun

/-- Once the signed pre-key of the bundle is in use, no rotation is unfinished. -/
theorem Scene.Orderly.promote (h : s.Orderly n) {b : DeviceBundle} {previous : Option UInt32}
    {r : SignedPreKeyRing} (hb : s.directory.bundles[s.messenger.address]? = some b)
    (hr : s.messenger.store.signedPreKeys.promote b.signedPreKey.id = .ok (previous, r)) :
    ((s.setStore { s.messenger.store with signedPreKeys := r }).setPendingRotation none).Orderly
      n := by
  unfold SignedPreKeyRing.promote at hr
  split at hr
  · cases hr
    refine ⟨h.pool, h.ring.of_subset rfl (fun _ hid => hid) fun id hid =>
      .inl (Std.ExtTreeMap.mem_of_mem_erase hid), nofun, fun hclean => ?_⟩
    obtain ⟨b', hb', ha⟩ := h.answers hclean
    cases hb.symm.trans hb'
    exact ⟨b, hb, ha.of_store rfl (fun key hkey hid => ⟨hkey.kept, .inl hid⟩) fun id k hk => hk⟩
  · cases hr

/-- While no rotation is unfinished the bundle refers to the signed pre-key in use, which cannot be
scheduled to be dropped. -/
theorem Scene.Orderly.expire (h : s.Orderly n) {id : UInt32} {expiry : Time}
    {r : SignedPreKeyRing} (hpending : s.messenger.pendingRotation = none)
    (hr : s.messenger.store.signedPreKeys.expire id expiry = .ok r) :
    (s.setStore { s.messenger.store with signedPreKeys := r }).Orderly n := by
  have hanswers : ∀ r' : SignedPreKeyRing, r'.keys = s.messenger.store.signedPreKeys.keys →
      r'.current = s.messenger.store.signedPreKeys.current →
      s.messenger.needsPublishing = false → ∃ b,
        s.directory.bundles[s.messenger.address]? = some b ∧
          (s.setStore { s.messenger.store with signedPreKeys := r' }).Answers b := by
    intro r' hkeys hcurrent hclean
    obtain ⟨b, hb, ha⟩ := h.answers hclean
    refine ⟨b, hb, ha.of_store rfl (fun key hkey _ => ⟨?_, ?_⟩) fun id k hk => hk⟩
    · change r'.keys[key.id]? = some key
      rw [hkeys]
      exact hkey.kept
    · exact hkey.used.imp_left fun hused => hcurrent.trans hused
  have hnone : ∀ other, s.messenger.pendingRotation = some other →
      other ∉ r.expiries := fun other h => absurd (hpending.symm.trans h) nofun
  unfold SignedPreKeyRing.expire at hr
  split at hr
  · cases hr
  · split at hr
    · next hmem =>
      cases hr
      refine ⟨h.pool, h.ring.of_subset rfl (fun _ hid => hid) fun other hid => ?_, hnone,
        hanswers _ rfl rfl⟩
      rcases Std.ExtTreeMap.mem_insert.mp hid with heq | hid
      · rw [← Std.LawfulEqCmp.compare_eq_iff_eq.mp heq]
        exact .inr hmem
      · exact .inl hid
    · cases hr
      exact ⟨h.pool, h.ring, hnone, hanswers _ rfl rfl⟩

/-- What is dropped is neither in use nor that of an unfinished rotation. -/
theorem Scene.Orderly.purge (h : s.Orderly n) :
    (s.setStore (s.messenger.store.purgeSignedPreKeys s.now).2).Orderly n := by
  have hexpiries : ∀ id ∈ (s.messenger.store.signedPreKeys.purge s.now).2.expiries,
      id ∈ s.messenger.store.signedPreKeys.expiries := fun id hid =>
    Std.ExtTreeMap.mem_of_mem_filter hid
  have hstays : ∀ key, s.Chooses key →
      s.messenger.store.signedPreKeys.isDue s.now key.id = false := by
    intro key hkey
    unfold SignedPreKeyRing.isDue
    rcases hkey.used with hused | hpending
    · rw [hused, bne_self_eq_false, Bool.false_and]
    · rw [Std.ExtTreeMap.getElem?_eq_none (h.pending _ hpending), Option.any_none, Bool.and_false]
  refine ⟨h.pool, h.ring.of_subset rfl (fun id hid => Std.ExtTreeMap.mem_of_mem_filter hid)
    fun id hid => .inl (hexpiries id hid), fun id hpending hid =>
      h.pending id hpending (hexpiries id hid), fun hclean => ?_⟩
  obtain ⟨b, hb, ha⟩ := h.answers hclean
  refine ⟨b, hb, ha.of_store rfl (fun key hkey _ => ⟨?_, hkey.used⟩) fun id k hk => hk⟩
  change (s.messenger.store.signedPreKeys.keys.filter fun id _ =>
    !s.messenger.store.signedPreKeys.isDue s.now id)[key.id]? = some key
  rw [Std.ExtTreeMap.getElem?_filter', hkey.kept, Option.filter_some, hstays key hkey]
  rfl

/-- One chore gives out at most as many numbers as it draws. -/
theorem Chore.orderly (h : Chore s t) : Counts Orderly s t := by
  have kept : (∀ n, s.Orderly n → t.Orderly n) → Counts Orderly s t :=
    .of_mono h.drawn_le fun _ _ hle ht => ht.mono hle
  cases h with
  | waste e he => exact kept fun n hs => hs.of_store rfl rfl hs.answers
  | fill target =>
    exact ⟨(OneTimePreKeyPool.replenish_later target _ _).drawn, fun n hs => hs.refill target⟩
  | publish signed d hchosen hd =>
    refine kept fun n hs => hs.of_store rfl rfl fun _ => ?_
    unfold Directory.publishBundle at hd
    split at hd
    · cases hd
    · cases hd
      exact ⟨_, Std.ExtTreeMap.getElem?_insert_self, Scene.answers_bundle hchosen⟩
  | refuse => exact kept fun n hs => hs.of_store rfl rfl nofun
  | list devices d hd =>
    obtain ⟨hbundles, -⟩ := Messenger.bundles_of_publishDeviceList hd
    refine kept fun n hs => hs.of_store rfl rfl fun hclean => ?_
    obtain ⟨b, hb, ha⟩ := hs.answers hclean
    exact ⟨b, (congrArg (·[s.messenger.address]?) hbundles).trans hb, ha⟩
  | create key r e hnone hr =>
    have hdrawn : e.drawn = s.entropy.drawn + 1 := SignedPreKeyRing.drawn_of_create hr
    refine ⟨Nat.le_of_lt (Nat.lt_of_lt_of_eq (Nat.lt_succ_self _) hdrawn.symm), fun n hs => ?_⟩
    change n + (e.drawn - s.entropy.drawn) < _ → Orderly (n + (e.drawn - s.entropy.drawn)) _
    rw [hdrawn, Nat.add_sub_cancel_left]
    exact fun hroom => hs.create hroom hnone hr
  | promote b previous r hb hr => exact kept fun n hs => hs.promote hb hr
  | expire id expiry r hpending hr => exact kept fun n hs => hs.expire hpending hr
  | purge => exact kept fun n hs => hs.purge

/-- A device that starts afresh goes on counting, and has to publish. -/
theorem Restart.orderly (h : Restart s t) : Counts Orderly s t := by
  obtain ⟨st, e, hr, rfl⟩ := h
  have hdrawn := Store.drawn_of_reprovision hr
  refine ⟨Nat.le_trans (Nat.le_add_right _ _) (Nat.le_of_eq hdrawn.symm), fun n hs => ?_⟩
  change n + (e.drawn - s.entropy.drawn) < _ → Orderly (n + (e.drawn - s.entropy.drawn)) _
  rw [hdrawn, Nat.add_sub_cancel_left]
  intro hroom
  obtain ⟨given, hgiven, hpool⟩ := hs.pool
  have hring := Store.numbered_of_reprovision hs.ring (by omega) hr
  have hfollows := Store.reprovision_follows hpool (by omega) hr
  exact ⟨⟨_, by omega, hfollows.numbered⟩, hring.mono (by omega), nofun, nofun⟩

/-- Traffic uses numbers up and gives none out. A one-time pre-key that was used up makes the bundle
need publishing. -/
theorem Traffic.orderly (h : Traffic s t) (hs : s.Orderly n) : t.Orderly n := by
  obtain ⟨given, hgiven, hpool⟩ := hs.pool
  refine ⟨?_, ?_, fun id hid => ?_, fun hclean => ?_⟩
  · refine ⟨given, hgiven, ?_⟩
    rcases h.pool with ⟨hsame, -⟩ | ⟨id, -, hremoved, -⟩
    · rw [hsame]
      exact hpool
    · rw [hremoved]
      exact (hpool.remove id).numbered
  · rw [h.signedPreKeys]
    exact hs.ring
  · rw [h.signedPreKeys]
    exact hs.pending id (h.pendingRotation ▸ hid)
  · rcases h.pool with ⟨hsame, hneeds⟩ | ⟨id, -, -, hneeds⟩
    · obtain ⟨b, hb, ha⟩ := hs.answers (hneeds ▸ hclean)
      obtain ⟨b', hb'⟩ := Option.isSome_iff_exists.mp (h.directory.stays (by rw [hb]; rfl))
      obtain ⟨b₀, hb₀, hout⟩ := h.directory.handsOut b' hb'
      cases hb.symm.trans hb₀
      refine ⟨b', h.address ▸ hb', (ha.handsOut hout).of_store h.identity
        (fun key hkey _ => ⟨?_, ?_⟩) fun id k hk => ?_⟩
      · rw [h.signedPreKeys]
        exact hkey.kept
      · rw [h.signedPreKeys, h.pendingRotation]
        exact hkey.used
      · rw [hsame]
        exact hk
    · cases hneeds.symm.trans hclean

/-! ## Runs -/

/-- A request gives out at most as many numbers as keys are made. -/
theorem Request.perform_orderly {request : Request} (hs : s.Orderly n) (hfiled : s.Filed)
    (hworld : s.Undisturbed request) (hroom : n + request.keysDrawn s < UInt32.size) :
    (request.perform s).Orderly (n + request.keysDrawn s) := by
  unfold keysDrawn at hroom ⊢
  by_cases hup : request.IsUpkeep
  · rw [if_pos hup] at hroom ⊢
    have hcounts := Request.counts_of_isUpkeep (fun _ _ => Chore.orderly)
      (fun _ _ => Restart.orderly) hup hfiled
    exact hcounts.keeps n hs hroom
  · rw [if_neg hup] at hroom ⊢
    exact (request.perform_traffic hup hworld).orderly hs

theorem Scene.Orderly.run (hs : s.Orderly n) (hfiled : s.Filed) {requests : List Request}
    (hworld : s.UndisturbedBy requests) (hroom : n + s.keysDrawn requests < UInt32.size) :
    (s.run requests).Orderly (n + s.keysDrawn requests) := by
  induction requests generalizing s n with
  | nil => exact hs
  | cons request rest ih =>
    unfold keysDrawn at hroom ⊢
    rw [← Nat.add_assoc] at hroom ⊢
    have hone := request.perform_orderly hs hfiled hworld.1 (by omega)
    exact ih hone (request.perform_filed hfiled) hworld.2 hroom

/-- The numbers of a device that was just set up are in order, and it has to publish. -/
theorem Provisioned.orderly {start : Scene} (h : Provisioned start)
    (hroom : start.messenger.settings.maxOneTimePreKeys < UInt32.size) :
    start.Orderly (start.messenger.settings.maxOneTimePreKeys + 2) := by
  obtain ⟨hpending, hneeds, now, e, e', hs⟩ := h.exists_provision
  obtain ⟨hpool, hring⟩ := Store.numbered_of_provision hroom hs
  refine ⟨⟨_, Nat.le_add_right _ 2, hpool⟩, hring.mono (Nat.le_add_left 2 _), ?_, ?_⟩
  · rw [hpending]
    exact nofun
  · rw [hneeds]
    exact nofun

/-- The signature on a bundle of a device is accepted. -/
theorem Messenger.verify_bundle (hsign : AcceptsOwnSignatures) (store : Store)
    (signed : SignedPreKey) : (bundle store signed).verify = .ok () := by
  have hok : CipherSuite.verify (bundle store signed).signingKey
      (bundle store signed).signedPreKey.key.bytes.toList (bundle store signed).signature =
        .ok () :=
    hsign store.identity.signingSeed signed.publicKey.bytes.toList
  unfold Credentials.verify
  rw [hok]

/-- A device that has made fewer keys than there are numbers, for whose address nobody else
publishes: when its bundle needs no publishing, the directory has a bundle with its identity and
its signing key whose signature is accepted, and the device keeps the signed pre-key and each
one-time pre-key of it. -/
theorem Scene.exists_answerable (hsign : AcceptsOwnSignatures) {start : Scene}
    (hstart : Provisioned start) (requests : List Request) (hworld : start.UndisturbedBy requests)
    (hroom : start.messenger.settings.maxOneTimePreKeys + 2 + start.keysDrawn requests <
      UInt32.size) :
    let s := start.run requests
    s.messenger.needsPublishing = false →
      ∃ b, s.directory.bundles[s.messenger.address]? = some b ∧
        b.identity = s.messenger.store.identity.publicKey ∧
        b.signingKey = s.messenger.store.identity.verifyingKey ∧
        b.verify = .ok () ∧
        (∃ key, s.messenger.store.signedPreKeys.get? b.signedPreKey.id = some key ∧
          b.signedPreKey.key = key.publicKey) ∧
        ∀ (id : UInt32) (key : PublicKey), b.oneTimePreKeys[id]? = some key →
          ∃ k, s.messenger.store.oneTimePreKeys.get? id = some k ∧ key = k.publicKey := by
  intro s hclean
  have hs : s.Orderly _ := (hstart.orderly (by omega)).run hstart.filed hworld hroom
  obtain ⟨b, hb, ha⟩ := hs.answers hclean
  obtain ⟨key, hkey, hc⟩ := ha.signed
  refine ⟨b, hb, ?_, ?_, ?_, ⟨key, ?_, ?_⟩, fun id key hk => ?_⟩
  · exact congrArg Credentials.identity hc
  · exact congrArg Credentials.signingKey hc
  · rw [hc]
    exact Messenger.verify_bundle hsign _ key
  · rw [hc]
    exact hkey.kept
  · exact congrArg (fun c => c.signedPreKey.key) hc
  · obtain ⟨k, hk, hpublic⟩ := ha.oneTime id key hk
    exact ⟨k, hk, hpublic.symm⟩

end Answerable

section Example

attribute [local instance] CipherSuite.transparent

/-- A rotation stops halfway: the directory has the new signed pre-key, and the old one is in use.
The bundle can be answered all the same. -/
theorem Scene.answerable_of_outage :
    ∃ start, Provisioned start ∧
      let s := start.run (start.outage ++ [.rotate, .prune])
      s.numbers = (1, some 2) ∧ s.messenger.needsPublishing = false ∧
        ∃ b, s.directory.bundles[s.messenger.address]? = some b ∧
          b.identity = s.messenger.store.identity.publicKey ∧
          b.signingKey = s.messenger.store.identity.verifyingKey ∧
          b.verify = .ok () ∧
          (∃ key, s.messenger.store.signedPreKeys.get? b.signedPreKey.id = some key ∧
            b.signedPreKey.key = key.publicKey) ∧
          ∀ (id : UInt32) (key : PublicKey), b.oneTimePreKeys[id]? = some key →
            ∃ k, s.messenger.store.oneTimePreKeys.get? id = some k ∧ key = k.publicKey := by
  have hstart : (rotator? (.ofDays 30)).any fun start =>
      let requests := start.outage ++ [.rotate, .prune]
      (start.run requests).numbers = (1, some 2) ∧
        (start.run requests).messenger.needsPublishing = false ∧
        start.messenger.settings.maxOneTimePreKeys + 2 + start.keysDrawn requests <
          UInt32.size := by
    decide +kernel
  obtain ⟨start, hsome, hp⟩ := (Option.any_eq_true _ _).mp hstart
  obtain ⟨hnumbers, hclean, hroom⟩ := of_decide_eq_true hp
  have hprovisioned := provisioned_of_joining hsome
  have hworld : start.UndisturbedBy (start.outage ++ [.rotate, .prune]) :=
    ⟨trivial, .of_bundles_eq rfl, trivial, trivial, trivial⟩
  exact ⟨start, hprovisioned, hnumbers, hclean,
    exists_answerable CipherSuite.transparent_acceptsOwnSignatures hprovisioned _ hworld hroom
      hclean⟩

end Example

end MultiDevice
