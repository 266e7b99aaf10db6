import MultiDevice.Proofs.Directory
import MultiDevice.Proofs.Messenger.Listing
import MultiDevice.Proofs.Trust.Pinned

/-!
# What a device changes in the directory

A device list is published as a whole, so a device that sees to its own entry writes those of its
siblings as well. It writes them as it found them. Sending only takes one-time pre-keys out of the
bundles that sessions are started from.

## Main definitions

* `Directory.beyond`: what a directory holds besides the entries of a device
* `Directory.Picks`: some bundles lost one of their one-time pre-keys
* `KeptByPublishing`: what publishing a bundle keeps

## Main results

* `KeptByPublishing.perform`: what publishing a bundle keeps, requests that may publish one keep
* `Messenger.publishWith_leaves_beyond`: publishing touches nothing but the own entries
* `Messenger.picks_encryptFor`: sending takes at most one key out of each bundle
* `Scene.own_entries_only`: what a device changes in the directory, and that it is listed then

## What is compared

The list of the own account is compared without the own entries, as a list: no entry of a sibling is
lost, changed or moved. How often the own device was listed before does not matter, nor whether one
of these entries takes part. Everything that may publish does so through one function, so it is
enough to see what that one keeps.
-/

namespace MultiDevice

/-! ## The entries of a device, and the others -/

namespace Directory

variable {d d' : Directory} {own : DeviceAddress} {bundle : DeviceBundle}

/-- What a directory holds besides the entries of a device. -/
structure Beyond where
  /-- The bundles of the other devices. -/
  bundles : Std.ExtTreeMap DeviceAddress DeviceBundle
  /-- The device lists of the other accounts. -/
  deviceLists : Std.ExtTreeMap Account (List Advertisement)
  /-- The entries of the other devices on the list of the account, in their order. -/
  siblings : List Advertisement
  /-- What has nothing to do with devices, and how lookups and publications go wrong. -/
  rest : Directory

/-- What a directory holds besides the entries of a device. -/
def beyond (own : DeviceAddress) (d : Directory) : Beyond :=
  { bundles := d.bundles.erase own
    deviceLists := d.deviceLists.erase own.account
    siblings := (d.devicesOf own.account).filter (·.device != own.device)
    rest := { d with bundles := ∅, deviceLists := ∅, publications := 0 } }

theorem filter_noteBundle (device : UInt32) (entries : List Advertisement) :
    (noteBundle device entries).filter (·.device != device) =
      entries.filter (·.device != device) := by
  induction entries with
  | nil => rfl
  | cons a rest ih =>
    unfold noteBundle
    split
    · next h => simp [h]
    · simp only [List.filter_cons, ih]

theorem filter_append_active (device : UInt32) (now : Time) (entries : List Advertisement) :
    (entries.filter (·.device != device) ++ [Advertisement.active device now]).filter
      (·.device != device) = entries.filter (·.device != device) := by
  simp [Advertisement.active]

theorem erase_listsAfterBundle (d : Directory) (own : DeviceAddress) :
    (d.listsAfterBundle own).erase own.account = d.deviceLists.erase own.account := by
  unfold listsAfterBundle
  cases d.deviceLists[own.account]? with
  | none => rfl
  | some entries => exact Entries.erase_insert

/-- Publishing a bundle changes nothing but the own entries. -/
theorem beyond_publishBundle (h : d.publishBundle own bundle = .ok d') :
    d'.beyond own = d.beyond own := by
  have hsiblings := devicesOf_publishBundle h
  unfold beyond
  rw [hsiblings, filter_noteBundle]
  unfold publishBundle at h
  split at h
  · cases h
  · cases h
    simp only [Entries.erase_insert, erase_listsAfterBundle]

/-- A device list that has the siblings as they were changes nothing but the own entries. -/
theorem beyond_insert {entries : List Advertisement}
    (hsiblings : entries.filter (·.device != own.device) =
      (d.devicesOf own.account).filter (·.device != own.device)) :
    Directory.beyond own { d with deviceLists := d.deviceLists.insert own.account entries } =
      d.beyond own := by
  simp only [beyond, devicesOf, Std.ExtTreeMap.getElem?_insert_self, Option.getD_some,
    Entries.erase_insert, hsiblings]

/-- An entry that takes part is kept, or there is a new one. -/
theorem exists_mem_relist (device : UInt32) (now : Time) (entries : List Advertisement) :
    ∃ a ∈ relist device now entries, a.device = device ∧ a.withdrawn = false := by
  unfold relist
  split
  · next h => simpa using h
  · exact ⟨_, List.mem_append_right _ (List.mem_singleton_self _), rfl, rfl⟩

/-! ## Bundles that were fetched -/

/-- Some bundles lost one of their one-time pre-keys, and nothing else changed. -/
structure Picks (may : DeviceAddress → Prop) (d d' : Directory) : Prop where
  rest : d' = { d with bundles := d'.bundles }
  bundle : ∀ device, d'.bundles[device]? = d.bundles[device]? ∨ may device ∧
    ∃ b id, d.bundles[device]? = some b ∧ id ∈ b.oneTimePreKeys ∧
      d'.bundles[device]? = some { b with oneTimePreKeys := b.oneTimePreKeys.erase id }

namespace Picks

variable {may may' : DeviceAddress → Prop} {d'' : Directory} {device : DeviceAddress}

protected theorem refl (d : Directory) : Picks may d d := ⟨rfl, fun _ => .inl rfl⟩

theorem mono (h : Picks may d d') (hmay : ∀ device, may device → may' device) :
    Picks may' d d' :=
  ⟨h.rest, fun device => (h.bundle device).imp_right fun ⟨hm, hb⟩ => ⟨hmay device hm, hb⟩⟩

/-- Bundles of different devices are fetched one after the other. -/
theorem trans (h : Picks may d d') (h' : Picks may' d' d'')
    (hdisjoint : ∀ device, may device → ¬ may' device) :
    Picks (fun device => may device ∨ may' device) d d'' := by
  refine ⟨?_, fun device => ?_⟩
  · rw [h'.rest, h.rest]
  · rcases h'.bundle device with hsame | ⟨hm', b, id, hb, hid, hb'⟩
    · rw [hsame]
      exact (h.bundle device).imp_right fun ⟨hm, hb⟩ => ⟨.inl hm, hb⟩
    · have hsame := (h.bundle device).resolve_right fun ⟨hm, _⟩ => hdisjoint device hm hm'
      exact .inr ⟨.inr hm', b, id, hsame ▸ hb, hid, hb'⟩

end Picks

/-- Fetching the bundle of a device takes at most one key out of it. -/
theorem picks_of_fetchBundle {device : DeviceAddress} {b : PreKeyBundle}
    (h : d.fetchBundle device = .ok (b, d')) : Picks (· = device) d d' := by
  obtain ⟨published, hp, ⟨-, rfl⟩ | ⟨id, hid, -, rfl⟩⟩ := cases_of_fetchBundle h
  · exact .refl d'
  · refine ⟨rfl, fun other => ?_⟩
    by_cases hother : other = device
    · rw [hother]
      exact .inr ⟨rfl, published, id, hp, hid, Std.ExtTreeMap.getElem?_insert_self⟩
    · exact .inl (Entries.insert_of_ne hother)

end Directory

/-! ## Publishing -/

/-- The address of the device that acts, and what the directory holds besides its entries. -/
def Scene.beyond (s : Scene) : DeviceAddress × Directory.Beyond :=
  (s.messenger.address, s.directory.beyond s.messenger.address)

theorem Scene.beyond_outsideStore : OutsideStore Scene.beyond :=
  ⟨fun _ _ => rfl, fun _ _ => rfl, fun _ _ => rfl⟩

namespace Messenger

open Scene (beyond_outsideStore)

theorem submitBundle_leaves_beyond (bundle : DeviceBundle) :
    Leaves Scene.beyond (submitBundle bundle) := by
  intro s
  rw [submitBundle, endState_bind_get]
  cases h : s.directory.publishBundle s.messenger.address bundle with
  | ok d => exact congrArg (Prod.mk _) (Directory.beyond_publishBundle h)
  | error err => rfl

/-- The device list of the account is replaced unless publications are refused. -/
theorem endState_publishDevices (devices : List Advertisement) (s : Scene) :
    endState (publishDevices devices) s =
      if s.directory.refusesPublication then s
      else s.setDirectory { s.directory with
        deviceLists := s.directory.deviceLists.insert s.messenger.address.account devices } := by
  rw [publishDevices, endState_bind_get, Directory.publishDeviceList]
  split
  · rfl
  · rfl

/-- If a device does anything to be listed, it publishes the list with a new entry at the end. -/
theorem endState_ensureListed (s : Scene) :
    endState ensureListed s = s ∨
      endState ensureListed s = endState (publishDevices
        (s.ownEntries.filter (·.device != s.messenger.address.device) ++
          [.active s.messenger.address.device s.now])) s := by
  rw [ensureListed, endState_bind_get]
  cases hlookup : s.directory.listDevices s.messenger.address.account with
  | error err =>
    exact .inl (endState_bind_of_error (Action.ofExcept_eq_error_iff.mpr ⟨hlookup, rfl⟩))
  | ok entries =>
    rw [endState_bind_of_ok (Action.ofExcept_eq_ok_iff.mpr ⟨hlookup, rfl⟩),
      Directory.eq_of_listDevices hlookup]
    split
    · exact .inl rfl
    · exact .inr rfl

theorem ensureListed_leaves_beyond : Leaves Scene.beyond ensureListed := by
  intro s
  rcases endState_ensureListed s with h | h
  · rw [h]
  · rw [h, endState_publishDevices]
    split
    · rfl
    · have hsiblings := Directory.filter_append_active s.messenger.address.device s.now s.ownEntries
      exact congrArg (Prod.mk s.messenger.address) (Directory.beyond_insert hsiblings)

variable [CipherSuite]

theorem publishWith_leaves_beyond (signed : SignedPreKey) :
    Leaves Scene.beyond (publishWith signed) := by
  refine beyond_outsideStore.fillPool.bind fun _ => Leaves.get.bind fun s => ?_
  exact (submitBundle_leaves_beyond _).bind fun _ => ensureListed_leaves_beyond

end Messenger

/-! ## What publishing keeps -/

/-- What holds of a scene does not depend on what a device keeps for itself and the randomness, and
publishing a bundle keeps it. -/
structure KeptByPublishing [CipherSuite] (p : Scene → Prop) : Prop where
  outside : OutsideStore p
  needsPublishing : ∀ s b, p (s.setNeedsPublishing b) = p s
  publishWith : ∀ signed, Ensures p (Messenger.publishWith signed) (fun _ => p) p

namespace KeptByPublishing

variable [CipherSuite] {p : Scene → Prop}

theorem publishBundle (hp : KeptByPublishing p) :
    Ensures p Messenger.publishBundle (fun _ => p) p := by
  have hread : Leaves p
      (get >>= fun s => Action.ofExcept s.messenger.store.signedPreKeys.current?) :=
    Leaves.get.bind fun _ => Leaves.ofExcept _
  exact hread.ensures.bind hp.publishWith

theorem publishIfNeeded (hp : KeptByPublishing p) :
    Ensures p Messenger.publishIfNeeded (fun _ => p) p := by
  refine Ensures.get_bind fun s hs => ?_
  split
  · refine (hp.publishBundle.weaken ?_).bind fun _ => Ensures.pure fun _ ht => ht
    rintro _ rfl
    exact hs
  · exact Ensures.pure fun _ ht => ht ▸ hs

theorem rotate (hp : KeptByPublishing p) : Ensures p Messenger.rotate (fun _ => p) p := by
  rw [Messenger.rotate_eq]
  refine hp.outside.nextSignedPreKey.ensures.bind fun next => ?_
  refine Ensures.bind (Leaves.modify fun s => hp.outside.pendingRotation s _).ensures fun _ => ?_
  exact (hp.publishWith next).bind fun _ => (hp.outside.finish _).ensures

theorem rotateIfDue (hp : KeptByPublishing p) :
    Ensures p Messenger.rotateIfDue (fun _ => p) p := by
  refine Ensures.get_bind fun s hs => ?_
  have hread : Leaves p (Action.ofExcept s.messenger.store.signedPreKeys.current?) :=
    Leaves.ofExcept _
  refine Ensures.bind (hread.ensures.weaken fun _ ht => ht ▸ hs) fun current => ?_
  dsimp only
  split
  · exact Ensures.pure fun _ ht => ht
  · exact hp.rotate.bind fun _ => Ensures.pure fun _ ht => ht

theorem regenerate (hp : KeptByPublishing p) : Ensures p Messenger.regenerate (fun _ => p) p := by
  refine Ensures.get_bind fun s hs => ?_
  have hnoted : Leaves p
      (modify fun s => (s.setPendingRotation none).setNeedsPublishing true : Action Unit) :=
    Leaves.modify fun s =>
      (hp.needsPublishing (s.setPendingRotation none) true).trans
        (hp.outside.pendingRotation s none)
  refine Ensures.bind ((hp.outside.changeStore _).ensures.weaken fun _ ht => ht ▸ hs) fun _ => ?_
  exact hnoted.ensures.bind fun _ => hp.publishBundle

/-- What publishing a bundle keeps, every request keeps that may publish one. -/
theorem perform (hp : KeptByPublishing p) {request : Request}
    (hrequest : request ∈
      [Request.publishBundle, .publishIfNeeded, .rotate, .rotateIfDue, .regenerate])
    {s : Scene} (hs : p s) : p (request.perform s) := by
  simp only [List.mem_cons, List.not_mem_nil, or_false] at hrequest
  rcases hrequest with rfl | rfl | rfl | rfl | rfl
  · exact hp.publishBundle.endState (fun _ _ ht => ht) hs
  · exact hp.publishIfNeeded.endState (fun _ _ ht => ht) hs
  · exact hp.rotate.endState (fun _ _ ht => ht) hs
  · exact hp.rotateIfDue.endState (fun _ _ ht => ht) hs
  · exact hp.regenerate.endState (fun _ _ ht => ht) hs

end KeptByPublishing

/-- Publishing keeps what the directory holds besides the own entries. -/
theorem Scene.keptByPublishing_beyond [CipherSuite] (s : Scene) :
    KeptByPublishing fun t => t.beyond = s.beyond where
  outside := ⟨fun _ _ => rfl, fun _ _ => rfl, fun _ _ => rfl⟩
  needsPublishing := fun _ _ => rfl
  publishWith := fun signed => Leaves.ensures fun t =>
    congrArg (· = s.beyond) (Messenger.publishWith_leaves_beyond signed t)

namespace Messenger

variable [CipherSuite]

/-! ## Being listed -/

variable {s t : Scene}

theorem isListed_of_publishWith {signed : SignedPreKey} (h : publishWith signed s = .ok () t) :
    t.IsListed := by
  obtain ⟨haddress, -, hentries⟩ := ownEntries_of_publishWith h
  unfold Scene.IsListed
  rw [hentries, haddress]
  exact Directory.exists_mem_relist _ _ _

theorem isListed_of_publishBundle (h : publishBundle s = .ok () t) : t.IsListed := by
  rw [publishBundle, bind_get] at h
  obtain ⟨current, u, -, h⟩ := bind_eq_ok_iff.mp h
  exact isListed_of_publishWith h

theorem isListed_of_rotate {id : UInt32} (h : rotate s = .ok id t) : t.IsListed := by
  rw [rotate_eq] at h
  obtain ⟨next, u, -, h⟩ := bind_eq_ok_iff.mp h
  obtain ⟨_, v, -, h⟩ := bind_eq_ok_iff.mp h
  obtain ⟨_, w, hpublish, hfinish⟩ := bind_eq_ok_iff.mp h
  have houtside : OutsideStore Scene.IsListed :=
    ⟨fun _ _ => rfl, fun _ _ => rfl, fun _ _ => rfl⟩
  exact ((houtside.finish _).eq_of_ok hfinish).mpr (isListed_of_publishWith hpublish)

theorem isListed_of_regenerate (h : regenerate s = .ok () t) : t.IsListed := by
  rw [regenerate, bind_get] at h
  obtain ⟨_, u, -, h⟩ := bind_eq_ok_iff.mp h
  obtain ⟨_, v, -, h⟩ := bind_eq_ok_iff.mp h
  exact isListed_of_publishBundle h

/-! ## Sending -/

/-- A device that is sent to without a session has its bundle fetched. -/
theorem picks_wrapFor (key : ContentKey) (device : DeviceAddress) (s : Scene) :
    Directory.Picks
      (fun other => other = device ∧ s.messenger.store.containsSession other = false)
      s.directory (endState (wrapFor key device) s).directory := by
  refine endState_bind_induction
    (p := fun t : Scene => Directory.Picks _ s.directory t.directory) ?_ fun bundle t _ ht => ?_
  · by_cases hsession : s.messenger.store.containsSession device = true
    · rw [endState_of_ok (bundleFor_of_session hsession)]
      exact .refl s.directory
    · cases hfetch : s.directory.fetchBundle device with
      | error err =>
        rw [endState_of_error (bundleFor_of_fetch_error hsession hfetch)]
        exact .refl s.directory
      | ok fetched =>
        obtain ⟨b, d⟩ := fetched
        rw [endState, bundleFor_of_fetch hsession hfetch]
        have hrest : Leaves Scene.directory (do
            Action.ofExcept b.verify
            observeIdentity device b.identity
            return some b) :=
          (Leaves.ofExcept _).bind fun _ =>
            (observeIdentity_leaves (fun _ _ => rfl) _ _).bind fun _ => Leaves.pure _
        have hend := hrest (s.setDirectory d)
        rw [endState] at hend
        rw [hend]
        refine (Directory.picks_of_fetchBundle hfetch).mono ?_
        rintro _ rfl
        exact ⟨rfl, Bool.eq_false_iff.mpr hsession⟩
  · have hwrap : Leaves Scene.directory (wrap key device bundle) :=
      Leaves.get.bind fun s => Leaves.changeStore _ (fun _ _ => rfl) fun _ _ _ _ _ _ => rfl
    rw [hwrap t]
    exact ht

/-- Each of several devices has its bundle fetched at most once. -/
theorem picks_wrapAll (key : ContentKey) {devices : List DeviceAddress} (hnodup : devices.Nodup)
    (s : Scene) :
    Directory.Picks
      (fun device => device ∈ devices ∧ s.messenger.store.containsSession device = false)
      s.directory (endState (wrapAll key devices) s).directory := by
  induction devices generalizing s with
  | nil => exact .refl s.directory
  | cons device rest ih =>
    obtain ⟨hnot, hnodup⟩ := List.nodup_cons.mp hnodup
    rw [endState_wrapAll_cons]
    have hfirst := picks_wrapFor key device s
    have hrest := ih hnodup (endState (wrapFor key device) s)
    refine (hfirst.trans hrest ?_).mono ?_
    · rintro _ ⟨rfl, -⟩ ⟨hmem, -⟩
      exact hnot hmem
    · rintro other (⟨rfl, hnone⟩ | ⟨hmem, hnone⟩)
      · exact ⟨List.mem_cons_self, hnone⟩
      · have hne : device ≠ other := fun h => hnot (h ▸ hmem)
        have hsame := (wrapFor_sameFor key hne s).1
        refine ⟨List.mem_cons_of_mem _ hmem, ?_⟩
        rw [Store.containsSession] at hnone ⊢
        rw [Std.ExtTreeMap.contains_eq_isSome_getElem?] at hnone ⊢
        rw [← hnone]
        exact congrArg Option.isSome hsame.symm

/-- Sending takes at most one key out of the bundle of each device that there was no session
with. -/
theorem picks_encryptFor (recipients : List Account) (plaintext : Bytes) (allowed : DeviceSet)
    (s : Scene) :
    Directory.Picks (fun device => s.messenger.store.containsSession device = false) s.directory
      (endState (encryptFor recipients plaintext allowed) s).directory := by
  have hprepare : Leaves (fun t : Scene => (t.messenger.store, t.directory))
      (prepare recipients plaintext allowed) := prepare_leaves (fun _ _ => rfl) _ _ _
  rw [encryptFor_eq, endState_bind_get]
  cases h : prepare recipients plaintext allowed s with
  | error err t =>
    obtain ⟨-, hdirectory⟩ := Prod.mk.inj (hprepare.eq_of_error h)
    rw [endState_bind_of_error h, hdirectory]
    exact .refl s.directory
  | ok prepared t =>
    obtain ⟨verdict, key, payload⟩ := prepared
    obtain ⟨hstore, hdirectory⟩ := Prod.mk.inj (hprepare.eq_of_ok h)
    rw [endState_bind_of_ok h]
    have hpicks := picks_wrapAll key verdict.accepted.nodup_toList t
    rw [hstore, hdirectory] at hpicks
    exact endState_bind_induction
      (p := fun u : Scene => Directory.Picks _ s.directory u.directory)
      (hpicks.mono fun _ hmay => hmay.2) fun _ _ _ hu => hu

end Messenger

/-- **A device changes its own entries only.** Whether it succeeds or fails, publishing, rotating
and starting afresh leave the bundles of the other devices as they are, and the lists of the other
accounts, and the entries of the other devices of its account in their order. Once it has succeeded,
the list of the account names the device as one that takes part. Sending changes nothing but that
the bundles of devices without a session each lose at most one one-time pre-key. -/
theorem Scene.own_entries_only [CipherSuite] (s : Scene) :
    (∀ request ∈ [Request.publishBundle, .publishIfNeeded, .rotate, .rotateIfDue, .regenerate],
      (request.perform s).messenger.address = s.messenger.address ∧
        (request.perform s).directory.beyond s.messenger.address =
          s.directory.beyond s.messenger.address) ∧
    (∀ t, Messenger.publishBundle s = .ok () t → t.IsListed) ∧
    (∀ id t, Messenger.rotate s = .ok id t → t.IsListed) ∧
    (∀ t, Messenger.regenerate s = .ok () t → t.IsListed) ∧
    ∀ recipients plaintext allowed,
      Directory.Picks (fun device => s.messenger.store.containsSession device = false) s.directory
        (Request.perform (.encryptFor recipients plaintext allowed) s).directory := by
  refine ⟨fun request hrequest => ?_, fun t => Messenger.isListed_of_publishBundle,
    fun id t => Messenger.isListed_of_rotate, fun t => Messenger.isListed_of_regenerate,
    fun recipients plaintext allowed => Messenger.picks_encryptFor recipients plaintext allowed s⟩
  have hbeyond := s.keptByPublishing_beyond.perform hrequest rfl
  obtain ⟨haddress, hrest⟩ := Prod.mk.inj hbeyond
  exact ⟨haddress, haddress ▸ hrest⟩

section Example

attribute [local instance] CipherSuite.transparent

namespace Scene

/-- A device list with an entry of the first device between two siblings. The first and the third
device have withdrawn. -/
def family : List Advertisement :=
  [.active 2 .epoch, { Advertisement.active 1 .epoch with withdrawn := true },
    { Advertisement.active 3 .epoch with withdrawn := true }]

/-- The first device of that list, set up anew. -/
def returning? : Option Scene :=
  (newcomer? ⟨"alice", 1⟩).map fun s =>
    s.setDirectory { Directory.empty with
      deviceLists := (∅ : Std.ExtTreeMap Account (List Advertisement)).insert "alice" family }

/-- When a device comes back, its siblings stay on the list as they were. -/
theorem own_entries_only_of_family :
    ∃ s t, Messenger.publishBundle s = .ok () t ∧ t.IsListed ∧
      s.directory.devicesOf "alice" = family ∧
      (t.directory.devicesOf "alice").filter (·.device != 1) =
        [.active 2 .epoch, { Advertisement.active 3 .epoch with withdrawn := true }] := by
  have hreturning : returning?.any fun s => (answer? Messenger.publishBundle s).isSome ∧
      s.messenger.address = ⟨"alice", 1⟩ ∧ s.directory.devicesOf "alice" = family := by
    decide +kernel
  obtain ⟨s, -, hs⟩ := (Option.any_eq_true _ _).mp hreturning
  obtain ⟨hanswer, haddress, hfamily⟩ := of_decide_eq_true hs
  obtain ⟨_, hanswer⟩ := Option.isSome_iff_exists.mp hanswer
  obtain ⟨t, ht⟩ := exists_of_answer? hanswer
  obtain ⟨honly, hlisted, -⟩ := own_entries_only s
  refine ⟨s, t, ht, hlisted t ht, hfamily, ?_⟩
  have hbeyond := (honly .publishBundle List.mem_cons_self).2
  rw [Request.perform, endState_of_ok ht, haddress] at hbeyond
  have hsiblings := congrArg Directory.Beyond.siblings hbeyond
  simp only [Directory.beyond, hfamily] at hsiblings
  rw [hsiblings]
  decide

end Scene

end Example

end MultiDevice
