import MultiDevice.Proofs.Messenger.Request
import MultiDevice.Proofs.Resolve

/-!
# Finding a device that published

After it published its bundle a device sees to it that the list of its account names it. An entry
that is there already stays as it is, with the time at which the device was last seen active. When
that time is too long ago, the device has published and is not found all the same.

## Main definitions

* `Directory.relist`: a device list that a device sees to
* `Scene.IsListed`: the list of the account names the device as one that takes part
* `Scene.HasLapsed`: it does so only in entries that do not count any more

## Main results

* `Messenger.ownEntries_of_publishBundle`: the device list after a publication
* `Scene.mem_resolve_iff_of_publishBundle`: a device that published is found unless it has lapsed
-/

namespace MultiDevice

namespace Directory

variable {d d' : Directory} {device : DeviceAddress} {bundle : DeviceBundle}

/-- Noting that a device has a bundle changes neither which devices take part nor their order. -/
theorem map_noteBundle (device : UInt32) (entries : List Advertisement) :
    (noteBundle device entries).map (fun a => (a.device, a.withdrawn)) =
      entries.map fun a => (a.device, a.withdrawn) := by
  induction entries with
  | nil => rfl
  | cons a rest ih =>
    unfold noteBundle
    split
    · rfl
    · simp [ih]

/-- Publishing a bundle notes it in the device list of the account. -/
theorem devicesOf_publishBundle (h : d.publishBundle device bundle = .ok d') :
    d'.devicesOf device.account = noteBundle device.device (d.devicesOf device.account) := by
  unfold publishBundle at h
  split at h
  · cases h
  · cases h
    unfold devicesOf listsAfterBundle
    cases hlist : d.deviceLists[device.account]? with
    | none =>
      simp [hlist, noteBundle]
    | some entries => simp

/-- A device list that is published is the list of its account. -/
theorem devicesOf_publishDeviceList {account : Account} {entries : List Advertisement}
    (h : d.publishDeviceList account entries = .ok d') : d'.devicesOf account = entries := by
  unfold publishDeviceList at h
  split at h
  · cases h
  · cases h
    simp [devicesOf]

/-- A device list that a device sees to: an entry of it that takes part stays as it is, and else
there is a new one at the end. -/
def relist (device : UInt32) (now : Time) (entries : List Advertisement) : List Advertisement :=
  if entries.any fun a => a.device == device && !a.withdrawn then entries
  else entries.filter (·.device != device) ++ [.active device now]

end Directory

/-- A device that is active now counts. -/
theorem Advertisement.isCurrent_active (device : UInt32) (p : StalenessPolicy) (now : Time) :
    (active device now).isCurrent p now = true := by
  cases hlimit : p.maxInactivity <;> simp [active, isCurrent, isFresh, hlimit, Time.since]

namespace Scene

variable {s t : Scene} {p : StalenessPolicy}

/-- The entries of the own account. -/
def ownEntries (s : Scene) : List Advertisement :=
  s.directory.devicesOf s.messenger.address.account

/-- The device list of the account names the device as one that takes part. -/
def IsListed (s : Scene) : Prop :=
  ∃ a ∈ s.ownEntries, a.device = s.messenger.address.device ∧ a.withdrawn = false

/-- The device list of the account names the device as one that takes part, but only in entries that
do not count, not even when it is noted that the device has a bundle. -/
def HasLapsed (s : Scene) (p : StalenessPolicy) : Prop :=
  s.IsListed ∧ ∀ a ∈ Directory.noteBundle s.messenger.address.device s.ownEntries,
    a.device = s.messenger.address.device → a.isCurrent p s.now = false

/-- Noting that a device has a bundle does not change whether it is listed. -/
theorem isListed_iff : s.IsListed ↔
    (Directory.noteBundle s.messenger.address.device s.ownEntries).any
      fun a => a.device == s.messenger.address.device && !a.withdrawn := by
  have hmap := congrArg (List.any · fun x => x.1 == s.messenger.address.device && !x.2)
    (Directory.map_noteBundle s.messenger.address.device s.ownEntries)
  simp only [List.any_map, Function.comp_def] at hmap
  rw [hmap]
  simp [IsListed]

/-- Seeing to the device list leaves the device with an entry that counts unless it has lapsed. -/
theorem exists_current_iff :
    (∃ a ∈ Directory.relist s.messenger.address.device s.now
        (Directory.noteBundle s.messenger.address.device s.ownEntries),
      a.device = s.messenger.address.device ∧ a.isCurrent p s.now) ↔ ¬ s.HasLapsed p := by
  unfold Directory.relist
  by_cases hlisted : s.IsListed
  · rw [if_pos (isListed_iff.mp hlisted)]
    simp [HasLapsed, hlisted]
  · rw [if_neg fun h => hlisted (isListed_iff.mpr h)]
    refine iff_of_true ?_ fun h => hlisted h.1
    refine ⟨_, List.mem_append_right _ (List.mem_singleton_self _), rfl, ?_⟩
    exact Advertisement.isCurrent_active _ p s.now

end Scene

namespace Messenger

variable {s t : Scene}

/-- The own account, and the clock: what publishing does not change. -/
theorem ownEntries_of_ensureListed (h : ensureListed s = .ok () t) :
    t.messenger = s.messenger ∧ t.now = s.now ∧
      t.ownEntries = Directory.relist s.messenger.address.device s.now s.ownEntries := by
  rw [ensureListed, bind_get] at h
  obtain ⟨entries, u, hlookup, h⟩ := bind_eq_ok_iff.mp h
  obtain ⟨hlist, rfl⟩ := Action.ofExcept_eq_ok_iff.mp hlookup
  rw [Directory.eq_of_listDevices hlist] at h
  unfold Directory.relist
  split at h
  · next hlisted =>
    cases h
    exact ⟨rfl, rfl, (if_pos hlisted).symm⟩
  · next hnot =>
    rw [publishDevices, bind_get] at h
    obtain ⟨d, u, hpublish, h⟩ := bind_eq_ok_iff.mp h
    obtain ⟨hd, rfl⟩ := Action.ofExcept_eq_ok_iff.mp hpublish
    cases h
    refine ⟨rfl, rfl, ?_⟩
    exact (Directory.devicesOf_publishDeviceList hd).trans (if_neg hnot).symm

theorem ownEntries_of_submitBundle {bundle : DeviceBundle} (h : submitBundle bundle s = .ok () t) :
    t.messenger.address = s.messenger.address ∧ t.now = s.now ∧
      t.ownEntries = Directory.noteBundle s.messenger.address.device s.ownEntries := by
  rw [submitBundle, bind_get] at h
  cases hd : s.directory.publishBundle s.messenger.address bundle with
  | error err =>
    rw [hd] at h
    cases h
  | ok d =>
    rw [hd] at h
    cases h
    exact ⟨rfl, rfl, Directory.devicesOf_publishBundle hd⟩

variable [CipherSuite]

/-- The device list after a publication. -/
theorem ownEntries_of_publishWith {signed : SignedPreKey} (h : publishWith signed s = .ok () t) :
    t.messenger.address = s.messenger.address ∧ t.now = s.now ∧
      t.ownEntries = Directory.relist s.messenger.address.device s.now
        (Directory.noteBundle s.messenger.address.device s.ownEntries) := by
  obtain ⟨_, v, hfill, h⟩ := bind_eq_ok_iff.mp h
  rw [bind_get] at h
  obtain ⟨_, w, hsubmit, hlist⟩ := bind_eq_ok_iff.mp h
  have houtside : OutsideStore fun v : Scene => (v.messenger.address, v.now, v.ownEntries) :=
    ⟨fun _ _ => rfl, fun _ _ => rfl, fun _ _ => rfl⟩
  obtain ⟨haddress, hrest⟩ := Prod.mk.inj (houtside.fillPool.eq_of_ok hfill)
  obtain ⟨hnow, hentries⟩ := Prod.mk.inj hrest
  obtain ⟨haddress', hnow', hentries'⟩ := ownEntries_of_submitBundle hsubmit
  obtain ⟨hmessenger, hnow'', hentries''⟩ := ownEntries_of_ensureListed hlist
  refine ⟨?_, ?_, ?_⟩
  · rw [hmessenger, haddress', haddress]
  · rw [hnow'', hnow', hnow]
  · rw [hentries'', hentries', hentries, haddress', haddress, hnow', hnow]

theorem ownEntries_of_publishBundle (h : publishBundle s = .ok () t) :
    t.messenger.address = s.messenger.address ∧ t.now = s.now ∧
      t.ownEntries = Directory.relist s.messenger.address.device s.now
        (Directory.noteBundle s.messenger.address.device s.ownEntries) := by
  rw [publishBundle, bind_get] at h
  obtain ⟨current, u, hcurrent, h⟩ := bind_eq_ok_iff.mp h
  obtain ⟨-, rfl⟩ := Action.ofExcept_eq_ok_iff.mp hcurrent
  exact ownEntries_of_publishWith h

end Messenger

/-- A device that has just published its bundle is found by a lookup of its account that succeeds,
unless it has lapsed: then it is on the list, but the time at which it was last seen active was not
renewed. -/
theorem Scene.mem_resolve_iff_of_publishBundle [CipherSuite] {s t : Scene} {limit : Duration}
    {devices : DeviceSet} (h : Messenger.publishBundle s = .ok () t)
    (hresolve : t.directory.resolve .standard t.now limit
      ((∅ : AccountSet).insert t.messenger.address.account) = .ok devices) :
    t.messenger.address ∈ devices ↔ ¬ s.HasLapsed .standard := by
  obtain ⟨haddress, hnow, hentries⟩ := Messenger.ownEntries_of_publishBundle h
  rw [← exists_current_iff, ← hentries, Directory.mem_of_resolve hresolve, mem_insert_iff,
    ← haddress, ← hnow]
  simp [Directory.HasCurrent, ownEntries]

section Example

attribute [local instance] CipherSuite.transparent

namespace Scene

/-- What a lookup of the own account finds after a publication. -/
def found? (s : Scene) : Option (List DeviceAddress) :=
  match Messenger.publishBundle s with
  | .error _ _ => none
  | .ok _ t =>
    match t.directory.resolve .standard t.now t.messenger.settings.resolveTimeout
      ((∅ : AccountSet).insert t.messenger.address.account) with
    | .error _ => none
    | .ok devices => some devices.toList

theorem exists_of_found {s : Scene} {found : List DeviceAddress} (h : s.found? = some found) :
    ∃ t devices, Messenger.publishBundle s = .ok () t ∧
      t.directory.resolve .standard t.now t.messenger.settings.resolveTimeout
        ((∅ : AccountSet).insert t.messenger.address.account) = .ok devices ∧
      devices.toList = found := by
  unfold found? at h
  split at h
  · cases h
  · next t hpublish =>
    split at h
    · cases h
    · next devices hresolve =>
      cases h
      exact ⟨t, devices, hpublish, hresolve, rfl⟩

/-- A device publishes its bundle, and then a time passes. -/
def afterSilence (s : Scene) (silence : Duration) : Scene :=
  s.run [.publishBundle, .surroundings (s.run [.publishBundle]).directory
    ⟨silence.nanoseconds⟩ .counting]

/-- A device that publishes again after ninety days has not lapsed. -/
theorem not_hasLapsed_of_short_silence :
    ∃ start t devices, Provisioned start ∧
      Messenger.publishBundle (start.afterSilence (.ofDays 90)) = .ok () t ∧
      t.directory.resolve .standard t.now t.messenger.settings.resolveTimeout
        ((∅ : AccountSet).insert t.messenger.address.account) = .ok devices ∧
      t.messenger.address ∈ devices ∧ ¬ (start.afterSilence (.ofDays 90)).HasLapsed .standard := by
  have hstart : (newcomer? ⟨"alice", 1⟩).any fun start =>
      (start.afterSilence (.ofDays 90)).found? =
        some [(start.afterSilence (.ofDays 90)).messenger.address] := by
    decide +kernel
  obtain ⟨start, hsome, hp⟩ := (Option.any_eq_true _ _).mp hstart
  obtain ⟨t, devices, hpublish, hresolve, hfound⟩ := exists_of_found (of_decide_eq_true hp)
  have haddress := (Messenger.ownEntries_of_publishBundle hpublish).1
  have hmem : t.messenger.address ∈ devices := by
    rw [← Std.ExtTreeSet.mem_toList, hfound, haddress]
    exact List.mem_singleton_self _
  exact ⟨start, t, devices, provisioned_of_newcomer hsome, hpublish, hresolve, hmem,
    (mem_resolve_iff_of_publishBundle hpublish hresolve).mp hmem⟩

/-- A device that publishes again after ninety-one days is not found. -/
theorem not_found_of_long_silence :
    ∃ start t devices, Provisioned start ∧
      Messenger.publishBundle (start.afterSilence (.ofDays 91)) = .ok () t ∧
      t.directory.resolve .standard t.now t.messenger.settings.resolveTimeout
        ((∅ : AccountSet).insert t.messenger.address.account) = .ok devices ∧
      t.messenger.address ∉ devices := by
  have hstart : (newcomer? ⟨"alice", 1⟩).any fun start =>
      (start.afterSilence (.ofDays 91)).found? = some [] := by
    decide +kernel
  obtain ⟨start, hsome, hp⟩ := (Option.any_eq_true _ _).mp hstart
  obtain ⟨t, devices, hpublish, hresolve, hfound⟩ := exists_of_found (of_decide_eq_true hp)
  refine ⟨start, t, devices, provisioned_of_newcomer hsome, hpublish, hresolve, ?_⟩
  rw [← Std.ExtTreeSet.mem_toList, hfound]
  exact List.not_mem_nil

end Scene

end Example

end MultiDevice
