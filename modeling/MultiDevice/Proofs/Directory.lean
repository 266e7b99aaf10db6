import MultiDevice.Directory.Basic
import MultiDevice.Proofs.Entries

/-!
# What a directory hands out

Whoever starts a session fetches the bundle of a device, and gets one of its one-time pre-keys if
there is one left. The bundle no longer lists that key, and is otherwise the one published.

## Main definitions

* `DeviceBundle.HandsOut`: a bundle after some of its one-time pre-keys were handed out
* `DeviceBundle.Gives`: what one initiator gets of a bundle
* `Directory.Serves`: what others do to the bundle of a device

## Main results

* `Directory.cases_of_fetchBundle`: what is handed out, and what is left
* `Directory.serves_of_fetchBundle`: fetching a bundle hands out one-time pre-keys, and nothing else
-/

namespace MultiDevice

/-! ## Bundles -/

/-- The same bundle after some of its one-time pre-keys were handed out. -/
structure DeviceBundle.HandsOut (b b' : DeviceBundle) : Prop where
  credentials : b'.toCredentials = b.toCredentials
  oneTime : ∀ (id : UInt32) (key : PublicKey),
    b'.oneTimePreKeys[id]? = some key → b.oneTimePreKeys[id]? = some key

theorem DeviceBundle.HandsOut.refl (b : DeviceBundle) : b.HandsOut b := ⟨rfl, fun _ _ hk => hk⟩

theorem DeviceBundle.HandsOut.trans {b b' b'' : DeviceBundle} (h : b.HandsOut b')
    (h' : b'.HandsOut b'') : b.HandsOut b'' :=
  ⟨h'.credentials.trans h.credentials, fun id key hk => h.oneTime id key (h'.oneTime id key hk)⟩

/-- A bundle handed out to one initiator comes from the published one. -/
structure DeviceBundle.Gives (published : DeviceBundle) (b : PreKeyBundle) : Prop where
  credentials : b.toCredentials = published.toCredentials
  oneTime : ∀ k, b.oneTimePreKey = some k → published.oneTimePreKeys[k.id]? = some k.key

theorem DeviceBundle.gives_pick (published : DeviceBundle) (picked : Option UInt32) :
    published.Gives (published.pick picked) := by
  refine ⟨rfl, fun k hk => ?_⟩
  obtain ⟨id, -, hk⟩ := Option.bind_eq_some_iff.mp hk
  obtain ⟨key, hkey, rfl⟩ := Option.map_eq_some_iff.mp hk
  exact hkey

/-! ## Handing out -/

namespace Directory

variable {d d' d'' : Directory} {device other : DeviceAddress} {b : PreKeyBundle}

/-- What others do to the bundle of a device: its one-time pre-keys are handed out. -/
structure Serves (device : DeviceAddress) (d d' : Directory) : Prop where
  handsOut : ∀ b', d'.bundles[device]? = some b' → ∃ b, d.bundles[device]? = some b ∧ b.HandsOut b'
  stays : (d.bundles[device]?).isSome → (d'.bundles[device]?).isSome

theorem Serves.of_bundles_eq (h : d'.bundles[device]? = d.bundles[device]?) :
    Serves device d d' := by
  refine ⟨fun b hb => ⟨b, h ▸ hb, .refl b⟩, fun hd => ?_⟩
  rw [h]
  exact hd

theorem Serves.refl (device : DeviceAddress) (d : Directory) : Serves device d d :=
  .of_bundles_eq rfl

theorem Serves.trans (h : Serves device d d') (h' : Serves device d' d'') :
    Serves device d d'' := by
  refine ⟨fun b'' hb => ?_, fun hd => h'.stays (h.stays hd)⟩
  obtain ⟨b', hb', hout'⟩ := h'.handsOut b'' hb
  obtain ⟨b, hb, hout⟩ := h.handsOut b' hb'
  exact ⟨b, hb, hout.trans hout'⟩

/-- The bundle published is handed out as it is, with one of its one-time pre-keys if there is one,
which it no longer lists. -/
theorem cases_of_fetchBundle (h : d.fetchBundle device = .ok (b, d')) :
    ∃ published, d.bundles[device]? = some published ∧
      ((b = published.pick none ∧ d' = d) ∨
        ∃ id, id ∈ published.oneTimePreKeys ∧ b = published.pick (some id) ∧
          d' = { d with bundles := d.bundles.insert device { published with
            oneTimePreKeys := published.oneTimePreKeys.erase id } }) := by
  unfold fetchBundle at h
  split at h
  · cases h
  · split at h
    · cases h
    · next published hp =>
      refine ⟨published, hp, ?_⟩
      split at h
      · cases h
        exact .inl ⟨rfl, rfl⟩
      · next id hid =>
        cases h
        refine .inr ⟨id, ?_, rfl, rfl⟩
        exact Std.ExtTreeMap.mem_keys.mp (List.mem_of_head? hid)

theorem handsOut_erase (published : DeviceBundle) (id : UInt32) :
    published.HandsOut { published with
      oneTimePreKeys := published.oneTimePreKeys.erase id } := by
  exact ⟨rfl, fun id' key hk => Entries.of_erase hk⟩

/-- Fetching the bundle of any device takes at most a one-time pre-key out of a bundle. -/
theorem serves_of_fetchBundle (h : d.fetchBundle other = .ok (b, d')) :
    Serves device d d' := by
  obtain ⟨published, hp, ⟨-, rfl⟩ | ⟨id, -, -, rfl⟩⟩ := cases_of_fetchBundle h
  · exact .refl device d'
  · refine ⟨fun b' hb => ?_, fun hd => ?_⟩
    · rcases Entries.of_insert hb with ⟨rfl, rfl⟩ | ⟨-, hb⟩
      · exact ⟨published, hp, handsOut_erase published id⟩
      · exact ⟨b', hb, .refl b'⟩
    · dsimp only
      rw [Std.ExtTreeMap.getElem?_insert]
      split
      · rfl
      · exact hd

/-- What is handed out comes from the bundle published. -/
theorem gives_of_fetchBundle (h : d.fetchBundle device = .ok (b, d')) :
    ∃ published, d.bundles[device]? = some published ∧ published.Gives b := by
  obtain ⟨published, hp, ⟨rfl, -⟩ | ⟨id, -, rfl, -⟩⟩ := cases_of_fetchBundle h
  · exact ⟨published, hp, published.gives_pick none⟩
  · exact ⟨published, hp, published.gives_pick (some id)⟩

end Directory

end MultiDevice
