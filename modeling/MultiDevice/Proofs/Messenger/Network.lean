import Mathlib.Logic.Function.Basic
import MultiDevice.Proofs.Messenger.OwnEntries

/-!
# Devices that share a directory

Any number of devices publish in one directory and are asked for things one after the other. A
device that sees to its entry has published a bundle before. A device that purges the list of its
account need not have, and is advertised with a bundle all the same.

## Main definitions

* `Directory.Advertises`: a device is on the list of its account as one with a bundle
* `Directory.Honest`: nothing new is said about devices without a bundle
* `Network`: devices that share a directory
* `Network.Event`, `Network.run`: what happens to them
* `Network.lastPurge`: the device that was the last to purge the list of an account

## Main results

* `Request.honest_perform`: every request but a purge is honest
* `Network.advertises_run_iff`: which devices without a bundle are advertised after a run
* `Network.advertised_bundles`: an advertised bundle exists unless the device was the last to purge
  the list of its account

## Why the last purge decides

All requests but a purge are honest: the device that they are for changes nothing about the others,
and says something new about itself only if there is a bundle of it. A purge replaces the whole list
of an account by one entry, without a look at the bundles. Whatever was said on the list before is
forgotten, so of all the purges only the last one matters, and of the account only the device that
made it. Bundles are never taken away, which is why a publication before a purge makes up for it.
-/

namespace MultiDevice

/-! ## Advertised devices -/

theorem DeviceAddress.eq_of_parts {a b : DeviceAddress} (haccount : a.account = b.account)
    (hdevice : a.device = b.device) : a = b := by
  cases a
  cases b
  exact congr (congrArg _ haccount) hdevice

namespace Directory

variable {d d' : Directory} {own device : DeviceAddress}

/-- A device is on the list of its account as one that takes part and has a bundle. -/
def Advertises (d : Directory) (device : DeviceAddress) : Prop :=
  ∃ a ∈ d.devicesOf device.account,
    a.device = device.device ∧ a.withdrawn = false ∧ a.hasBundle = true

instance (d : Directory) (device : DeviceAddress) : Decidable (d.Advertises device) :=
  inferInstanceAs (Decidable (∃ a ∈ d.devicesOf device.account,
    a.device = device.device ∧ a.withdrawn = false ∧ a.hasBundle = true))

/-- No bundle is taken away, and nothing new is said about the devices that have none. -/
structure Honest (d d' : Directory) : Prop where
  bundles : ∀ device ∈ d.bundles, device ∈ d'.bundles
  advertised : ∀ device, device ∉ d'.bundles → (d'.Advertises device ↔ d.Advertises device)

protected theorem Honest.refl (d : Directory) : Honest d d := ⟨fun _ h => h, fun _ _ => .rfl⟩

/-- Taking one-time pre-keys out of bundles is honest. -/
theorem Picks.honest {may : DeviceAddress → Prop} (h : Picks may d d') : Honest d d' := by
  refine ⟨fun device hmem => ?_, fun device _ => ?_⟩
  · rcases h.bundle device with hsame | ⟨-, b, id, -, -, hb⟩
    · obtain ⟨b, hb⟩ := Entries.exists_of_mem hmem
      exact Entries.mem_of_getElem? (hsame.trans hb)
    · exact Entries.mem_of_getElem? hb
  · rw [h.rest]
    rfl

/-- Whether another device is advertised is decided beyond the own entries. -/
theorem advertises_iff_of_ne (hne : device ≠ own) :
    d.Advertises device ↔
      ∃ a ∈ if device.account = own.account then (d.beyond own).siblings
          else ((d.beyond own).deviceLists[device.account]?).getD [],
        a.device = device.device ∧ a.withdrawn = false ∧ a.hasBundle = true := by
  by_cases haccount : device.account = own.account
  · rw [if_pos haccount]
    have hdevice : device.device ≠ own.device := fun h => hne (DeviceAddress.eq_of_parts haccount h)
    constructor
    · rintro ⟨a, hmem, ha, hrest⟩
      have hsibling : (a.device != own.device) = true := bne_iff_ne.mpr (ha ▸ hdevice)
      exact ⟨a, List.mem_filter.mpr ⟨haccount ▸ hmem, hsibling⟩, ha, hrest⟩
    · rintro ⟨a, hmem, hrest⟩
      exact ⟨a, haccount ▸ (List.mem_filter.mp hmem).1, hrest⟩
  · have hlist : (d.beyond own).deviceLists[device.account]? = d.deviceLists[device.account]? := by
      rw [beyond, Std.ExtTreeMap.getElem?_erase, if_neg]
      exact fun h => haccount (Std.LawfulEqCmp.compare_eq_iff_eq.mp h).symm
    rw [if_neg haccount, hlist]
    rfl

/-- A device that sees to its own entries only is honest if it does nothing as long as it has no
bundle. -/
theorem honest_of_beyond_eq (hbeyond : d'.beyond own = d.beyond own)
    (hoffered : d' = d ∨ own ∈ d'.bundles) : Honest d d' := by
  refine ⟨fun device hmem => ?_, fun device hnone => ?_⟩
  · by_cases hown : device = own
    · rw [hown] at hmem ⊢
      rcases hoffered with rfl | hoffered
      · exact hmem
      · exact hoffered
    · have hothers : device ∈ (d.beyond own).bundles := Entries.mem_erase_iff.mpr ⟨hown, hmem⟩
      rw [← hbeyond] at hothers
      exact (Entries.mem_erase_iff.mp hothers).2
  · by_cases hown : device = own
    · rw [hoffered.resolve_right (hown ▸ hnone)]
    · rw [advertises_iff_of_ne hown, advertises_iff_of_ne hown, hbeyond]

/-- A device that purges the list of its account is the only one on it, as a device with a
bundle. -/
theorem advertises_purged_iff {now : Time} :
    Advertises { d with
        deviceLists := d.deviceLists.insert own.account [.active own.device now] } device ↔
      if own.account = device.account then device = own else d.Advertises device := by
  unfold Advertises devicesOf
  rw [Std.ExtTreeMap.getElem?_insert]
  simp only [Std.LawfulEqCmp.compare_eq_iff_eq]
  split
  · next haccount =>
    simp only [Option.getD_some, List.mem_singleton, exists_eq_left]
    constructor
    · rintro ⟨hdevice, -⟩
      exact DeviceAddress.eq_of_parts haccount.symm hdevice.symm
    · rintro rfl
      exact ⟨rfl, rfl, rfl⟩
  · rfl

/-- A device found by a lookup that asks for bundles is advertised. -/
theorem advertises_of_mem_resolve {p : StalenessPolicy} {now : Time} {limit : Duration}
    {accounts : AccountSet} {devices : DeviceSet} (hrequired : p.requireBundle = true)
    (hresolve : d.resolve p now limit accounts = .ok devices) (hmem : device ∈ devices) :
    d.Advertises device := by
  obtain ⟨-, a, ha, hdevice, hcurrent⟩ := (mem_of_resolve hresolve).mp hmem
  have hcounts := Advertisement.isCurrent_iff.mp hcurrent
  exact ⟨a, ha, hdevice, hcounts.takesPart, hcounts.bundle hrequired⟩

/-- Where a fetch finds no bundle, there is none. -/
theorem notMem_of_fetchBundle (h : d.fetchBundle device = .error (.noBundle device)) :
    device ∉ d.bundles := by
  intro hmem
  obtain ⟨b, hb⟩ := Entries.exists_of_mem hmem
  unfold fetchBundle at h
  rw [hb] at h
  split at h
  · cases h
  · dsimp only at h
    split at h <;> cases h

end Directory

/-! ## Requests to one device -/

/-- The directory is a given one, or the device has a bundle in it. -/
def Scene.Offers (d : Directory) (s : Scene) : Prop :=
  s.directory = d ∨ s.messenger.address ∈ s.directory.bundles

theorem Scene.offers_outsideStore (d : Directory) : OutsideStore (Scene.Offers d) :=
  ⟨fun _ _ => rfl, fun _ _ => rfl, fun _ _ => rfl⟩

namespace Messenger

variable {d : Directory}

open Scene (offers_outsideStore)

theorem submitBundle_offers (bundle : DeviceBundle) :
    Ensures (Scene.Offers d) (submitBundle bundle)
      (fun _ t => t.messenger.address ∈ t.directory.bundles) (Scene.Offers d) := by
  intro s hs
  rw [submitBundle, bind_get]
  unfold Directory.publishBundle
  cases s.directory.refusesPublication with
  | true =>
    exact hs
  | false => exact Entries.mem_insert_iff.mpr (.inl rfl)

theorem ensureListed_offers :
    Ensures (fun t => t.messenger.address ∈ t.directory.bundles) ensureListed
      (fun _ => Scene.Offers d) (Scene.Offers d) := by
  have hleaves : Leaves (fun t : Scene => t.messenger.address ∈ t.directory.bundles)
      ensureListed := by
    intro s
    rcases endState_ensureListed s with h | h
    · rw [h]
    · rw [h, endState_publishDevices]
      split <;> rfl
  exact hleaves.ensures.mono (fun _ _ => .inr) fun _ => .inr

variable [CipherSuite]

/-- A device that publishes does nothing else as long as the directory has no bundle of it. -/
theorem publishWith_offers (signed : SignedPreKey) :
    Ensures (Scene.Offers d) (publishWith signed) (fun _ => Scene.Offers d) (Scene.Offers d) := by
  refine (offers_outsideStore d).fillPool.ensures.bind fun _ => Ensures.get_bind fun s hs => ?_
  refine ((submitBundle_offers _).weaken ?_).bind fun _ => ensureListed_offers
  rintro _ rfl
  exact hs

theorem keptByPublishing_offers (d : Directory) : KeptByPublishing (Scene.Offers d) where
  outside := offers_outsideStore d
  needsPublishing := fun _ _ => rfl
  publishWith := publishWith_offers

/-- Reading leaves the directory alone. -/
theorem read_leaves_directory (sender : DeviceAddress) (envelope : Envelope) :
    Leaves Scene.directory (read sender envelope) := by
  intro s
  rw [endState_read]
  split
  · split
    · rfl
    · next transport _ =>
      cases hunwrap : unwrapFrom sender transport s with
      | error err t =>
        obtain ⟨e, -, rfl⟩ := exists_of_unwrapFrom_eq_error hunwrap
        rfl
      | ok unwrapped t =>
        obtain ⟨st, e, -, rfl⟩ := unwrapFrom_eq_ok_iff.mp hunwrap
        refine (observeIdentity_leaves (fun _ _ => rfl) _ _ _).trans ?_
        split <;> rfl
  · rfl

end Messenger

namespace Request

/-- The request is for a messenger, and does not change the world around it. -/
def IsOwn : Request → Prop
  | .surroundings .. => False
  | _ => True

/-- The device that a request makes the only one on the list of an account, if it does. -/
def purger? (s : Scene) (account : Account) : Request → Option DeviceAddress
  | .purgeDevices =>
    if s.directory.refusesPublication = false ∧ s.messenger.address.account = account then
      some s.messenger.address
    else none
  | _ => none

variable [CipherSuite] {request : Request} {s : Scene} {device : DeviceAddress}

/-- Requests that may publish a bundle are honest: they keep the entries of the others, and the
device has a bundle once they changed anything. -/
theorem honest_of_publishing (hrequest : request ∈
      [Request.publishBundle, .publishIfNeeded, .rotate, .rotateIfDue, .regenerate]) :
    s.directory.Honest (request.perform s).directory := by
  have hbeyond := s.keptByPublishing_beyond.perform hrequest rfl
  obtain ⟨haddress, hrest⟩ := Prod.mk.inj hbeyond
  have hoffered : (request.perform s).Offers s.directory :=
    (Messenger.keptByPublishing_offers s.directory).perform hrequest (.inl rfl)
  rw [haddress] at hrest
  rw [Scene.Offers, haddress] at hoffered
  exact Directory.honest_of_beyond_eq hrest hoffered

/-- Every request but a purge is honest. -/
theorem honest_perform (hown : request.IsOwn) (hpurge : request ≠ .purgeDevices) :
    s.directory.Honest (request.perform s).directory := by
  cases request with
  | encryptFor recipients plaintext allowed =>
    exact (Messenger.picks_encryptFor recipients plaintext allowed s).honest
  | decrypt sender envelope =>
    rw [perform, Messenger.decrypt_snd, Messenger.read_leaves_directory sender envelope s]
    exact .refl s.directory
  | decideTrust device state => exact .refl s.directory
  | resetSession device => exact .refl s.directory
  | purgeDevices => exact (hpurge rfl).elim
  | prune =>
    have hleaves : Leaves Scene.directory Messenger.prune :=
      Leaves.get.bind fun _ => Leaves.changeStore _ (fun _ _ => rfl) fun _ _ _ _ _ _ => rfl
    rw [perform, hleaves s]
    exact .refl s.directory
  | surroundings directory now entropy => exact hown.elim
  | publishBundle | publishIfNeeded | rotate | rotateIfDue | regenerate =>
    exact honest_of_publishing (by simp)

/-- The directory after a purge. -/
theorem directory_purge (s : Scene) :
    (Request.perform .purgeDevices s).directory =
      if s.directory.refusesPublication then s.directory
      else { s.directory with
        deviceLists := s.directory.deviceLists.insert s.messenger.address.account
          [.active s.messenger.address.device s.now] } := by
  have hend : Request.perform .purgeDevices s =
      endState (Messenger.publishDevices [.active s.messenger.address.device s.now]) s := rfl
  rw [hend, Messenger.endState_publishDevices]
  split <;> rfl

/-- No request takes a bundle away. -/
theorem mem_bundles_perform (hown : request.IsOwn) (hmem : device ∈ s.directory.bundles) :
    device ∈ (request.perform s).directory.bundles := by
  by_cases hpurge : request = .purgeDevices
  · rw [hpurge, directory_purge]
    split <;> exact hmem
  · exact (honest_perform hown hpurge).bundles device hmem

/-- After a request a device without a bundle is advertised if it was before, unless its list was
purged: then only if it purged the list itself. -/
theorem advertises_perform_iff (hown : request.IsOwn)
    (hnone : device ∉ (request.perform s).directory.bundles) :
    (request.perform s).directory.Advertises device ↔
      (request.purger? s device.account).elim (s.directory.Advertises device) (device = ·) := by
  by_cases hpurge : request = .purgeDevices
  · subst hpurge
    rw [directory_purge, purger?]
    cases s.directory.refusesPublication with
    | true => exact Iff.rfl
    | false =>
      refine Directory.advertises_purged_iff.trans ?_
      by_cases haccount : s.messenger.address.account = device.account <;> simp [haccount]
  · refine ((honest_perform hown hpurge).advertised device hnone).trans ?_
    cases request with
    | purgeDevices => exact (hpurge rfl).elim
    | _ => exact Iff.rfl

end Request

/-! ## Many devices -/

/-- Devices that share a directory. -/
structure Network (ι : Type) where
  /-- The devices at work. -/
  messengers : ι → Messenger
  /-- The directory that they share. -/
  directory : Directory

namespace Network

variable {ι : Type}

/-- What one of the devices sees, at some time and with some randomness. -/
def scene (n : Network ι) (i : ι) (now : Time) (entropy : Entropy) : Scene :=
  { messenger := n.messengers i, directory := n.directory, now, entropy }

/-- What happens to devices that share a directory. -/
inductive Event (ι : Type) where
  /-- One of them is asked for something. -/
  | ask (i : ι) (request : Request) (hown : request.IsOwn) (now : Time) (entropy : Entropy)
  /-- From now on lookups and publications go wrong in another way, or no longer. -/
  | disturb (refusesPublication : Bool) (failingAccounts : AccountSet)
      (faults : Std.ExtTreeMap Account Error) (latency : Duration)

/-- The device that an event makes the only one on the list of an account, if it does. -/
def Event.purger? (n : Network ι) (account : Account) : Event ι → Option DeviceAddress
  | .ask i request _ now entropy => request.purger? (n.scene i now entropy) account
  | .disturb .. => none

section Run

variable [CipherSuite] [DecidableEq ι]

/-- The devices and the directory after an event. -/
def Event.perform (n : Network ι) : Event ι → Network ι
  | .ask i request _ now entropy =>
    let s := request.perform (n.scene i now entropy)
    { messengers := Function.update n.messengers i s.messenger, directory := s.directory }
  | .disturb refusesPublication failingAccounts faults latency =>
    { n with directory := { n.directory with
        refusesPublication, failingAccounts, faults, latency } }

/-- The devices and the directory after several events. -/
def run (n : Network ι) : List (Event ι) → Network ι
  | [] => n
  | event :: rest => (event.perform n).run rest

/-- The device that was the last to purge the list of an account. -/
def lastPurge (n : Network ι) (account : Account) : List (Event ι) → Option DeviceAddress
  | [] => none
  | event :: rest => ((event.perform n).lastPurge account rest).or (event.purger? n account)

/-- Whoever purges a device list has published a bundle before. -/
def PurgesPublished (n : Network ι) : List (Event ι) → Prop
  | [] => True
  | event :: rest =>
    (∀ account, ∀ purger ∈ event.purger? n account, purger ∈ n.directory.bundles) ∧
      (event.perform n).PurgesPublished rest

variable {n : Network ι} {event : Event ι} {events : List (Event ι)} {device : DeviceAddress}

theorem mem_bundles_perform (hmem : device ∈ n.directory.bundles) :
    device ∈ (event.perform n).directory.bundles := by
  cases event with
  | ask i request hown now entropy =>
    exact Request.mem_bundles_perform (s := n.scene i now entropy) hown hmem
  | disturb => exact hmem

theorem advertises_perform_iff (hnone : device ∉ (event.perform n).directory.bundles) :
    (event.perform n).directory.Advertises device ↔
      (event.purger? n device.account).elim (n.directory.Advertises device) (device = ·) := by
  cases event with
  | ask i request hown now entropy =>
    exact Request.advertises_perform_iff (s := n.scene i now entropy) hown hnone
  | disturb => exact Iff.rfl

theorem mem_bundles_run (hmem : device ∈ n.directory.bundles) :
    device ∈ (n.run events).directory.bundles := by
  induction events generalizing n with
  | nil => exact hmem
  | cons event rest ih => exact ih (mem_bundles_perform hmem)

/-- After a run a device without a bundle is advertised if it was before, unless its list was
purged: then only if it was the last to do so. -/
theorem advertises_run_iff (hnone : device ∉ (n.run events).directory.bundles) :
    (n.run events).directory.Advertises device ↔
      (n.lastPurge device.account events).elim (n.directory.Advertises device) (device = ·) := by
  induction events generalizing n with
  | nil => exact Iff.rfl
  | cons event rest ih =>
    refine (ih hnone).trans ?_
    rw [lastPurge]
    cases (event.perform n).lastPurge device.account rest with
    | some purger => exact Iff.rfl
    | none =>
      exact advertises_perform_iff fun hmem => hnone (mem_bundles_run (n := event.perform n) hmem)

/-- If whoever purges has published before, the last one to do so has a bundle. -/
theorem PurgesPublished.mem_bundles {account : Account} (h : n.PurgesPublished events)
    (hlast : n.lastPurge account events = some device) :
    device ∈ (n.run events).directory.bundles := by
  induction events generalizing n with
  | nil => cases hlast
  | cons event rest ih =>
    rw [lastPurge] at hlast
    cases hrest : (event.perform n).lastPurge account rest with
    | some purger =>
      rw [hrest] at hlast
      cases hlast
      exact ih h.2 hrest
    | none =>
      -- bundles stay, so the one published before the purge is there at the end
      rw [hrest] at hlast
      exact mem_bundles_run (n := event.perform n)
        (mem_bundles_perform (h.1 account device hlast))

/-- **An advertised bundle exists unless a device purged too early.** Start from a directory in
which nothing is published. After any run, a device without a bundle is advertised with one exactly
if it was the last to purge the list of its account. So it is that device if a lookup that asks for
bundles finds a device and a fetch finds no bundle of it. If whoever purges a list has published
before, every advertised bundle exists. -/
theorem advertised_bundles (hlists : n.directory.deviceLists = ∅) (events : List (Event ι)) :
    (∀ device, device ∉ (n.run events).directory.bundles →
      ((n.run events).directory.Advertises device ↔
        n.lastPurge device.account events = some device)) ∧
    (∀ p now limit accounts devices device, p.requireBundle = true →
      (n.run events).directory.resolve p now limit accounts = .ok devices → device ∈ devices →
      (n.run events).directory.fetchBundle device = .error (.noBundle device) →
        n.lastPurge device.account events = some device) ∧
    (n.PurgesPublished events → ∀ device, (n.run events).directory.Advertises device →
      device ∈ (n.run events).directory.bundles) := by
  have hnobody : ∀ device, ¬ n.directory.Advertises device := by
    rintro device ⟨a, ha, -⟩
    simp [Directory.devicesOf, hlists] at ha
  have hexact : ∀ device, device ∉ (n.run events).directory.bundles →
      ((n.run events).directory.Advertises device ↔
        n.lastPurge device.account events = some device) := by
    intro device hnone
    rw [advertises_run_iff hnone]
    cases n.lastPurge device.account events with
    | none => simp [hnobody device]
    | some purger => simp [eq_comm]
  refine ⟨hexact, ?_, fun hpublished device hadvertised => ?_⟩
  · intro p now limit accounts devices device hrequired hresolve hmem hfetch
    exact (hexact device (Directory.notMem_of_fetchBundle hfetch)).mp
      (Directory.advertises_of_mem_resolve hrequired hresolve hmem)
  · by_contra hnone
    exact hnone (hpublished.mem_bundles ((hexact device hnone).mp hadvertised))

end Run

section Example

attribute [local instance] CipherSuite.transparent

/-- Two devices and a directory in which nothing is published. -/
def pair (a b : Scene) : Network Bool :=
  { messengers := fun second => if second then b.messenger else a.messenger, directory := .empty }

/-- The first device publishes its bundle. -/
def publication : Event Bool := .ask false .publishBundle trivial .epoch .counting

/-- The first device purges the list of its account. -/
def purge : Event Bool := .ask false .purgeDevices trivial .epoch .counting

/-- A lookup finds a device, but there is no bundle to fetch. -/
def findsBare (d : Directory) (device : DeviceAddress) : Bool :=
  match d.resolve .standard .epoch (.ofSeconds 10) ((∅ : AccountSet).insert device.account),
    d.fetchBundle device with
  | .ok devices, .error (.noBundle missing) => devices.contains device && missing == device
  | _, _ => false

/-- A new device that purges the list of its account is found there by a lookup that asks for
bundles, but there is no bundle of it. -/
theorem exists_advertised_without_bundle :
    ∃ (a b : Scene) (devices : DeviceSet), Provisioned a ∧ Provisioned b ∧
      ((pair a b).run [purge]).directory.resolve .standard .epoch (.ofSeconds 10)
        ((∅ : AccountSet).insert "alice") = .ok devices ∧
      ⟨"alice", 1⟩ ∈ devices ∧
      ((pair a b).run [purge]).directory.fetchBundle ⟨"alice", 1⟩ =
        .error (.noBundle ⟨"alice", 1⟩) := by
  have hpair : (Scene.newcomer? ⟨"alice", 1⟩).any fun a =>
      (Scene.newcomer? ⟨"bob", 2⟩).any fun b =>
        findsBare ((pair a b).run [purge]).directory ⟨"alice", 1⟩ := by
    decide +kernel
  obtain ⟨a, ha, hpair⟩ := (Option.any_eq_true _ _).mp hpair
  obtain ⟨b, hb, hbare⟩ := (Option.any_eq_true _ _).mp hpair
  unfold findsBare at hbare
  split at hbare
  · next devices missing hresolve hfetch =>
    obtain ⟨hmem, hmissing⟩ := Bool.and_eq_true_iff.mp hbare
    cases eq_of_beq hmissing
    exact ⟨a, b, devices, provisioned_of_newcomer ha, provisioned_of_newcomer hb, hresolve,
      Std.ExtTreeSet.contains_iff_mem.mp hmem, hfetch⟩
  · cases hbare

/-- A device that purges the list before it publishes is advertised without a bundle, and one that
does so afterwards with a bundle. -/
theorem advertised_bundles_of_pair :
    ∃ a : Scene, Provisioned a ∧
      ((pair a a).run [purge]).directory.Advertises ⟨"alice", 1⟩ ∧
      ⟨"alice", 1⟩ ∉ ((pair a a).run [purge]).directory.bundles ∧
      ((pair a a).run [publication, purge]).directory.Advertises ⟨"alice", 1⟩ ∧
      ⟨"alice", 1⟩ ∈ ((pair a a).run [publication, purge]).directory.bundles := by
  have hpair : (Scene.newcomer? ⟨"alice", 1⟩).any fun a =>
      (pair a a).lastPurge "alice" [purge] = some ⟨"alice", 1⟩ ∧
        (((pair a a).run [publication]).messengers false).address = ⟨"alice", 1⟩ ∧
        ⟨"alice", 1⟩ ∉ ((pair a a).run [purge]).directory.bundles ∧
        ⟨"alice", 1⟩ ∈ ((pair a a).run [publication]).directory.bundles ∧
        ((pair a a).run [publication, purge]).directory.Advertises ⟨"alice", 1⟩ := by
    decide +kernel
  obtain ⟨a, ha, hpair⟩ := (Option.any_eq_true _ _).mp hpair
  obtain ⟨hlast, haddress, hbare, hpublished, hadvertised⟩ := of_decide_eq_true hpair
  obtain ⟨hearly, -, -⟩ := @advertised_bundles Bool _ _ (pair a a) rfl [purge]
  obtain ⟨-, -, hlate⟩ := @advertised_bundles Bool _ _ (pair a a) rfl [publication, purge]
  have hordered : (pair a a).PurgesPublished [publication, purge] := by
    refine ⟨nofun, fun account purger hpurger => ?_, trivial⟩
    have hpurger : (if _ then some (((pair a a).run [publication]).messengers false).address
      else none) = some purger := hpurger
    split at hpurger
    · cases haddress.symm.trans (Option.some.inj hpurger)
      exact hpublished
    · cases hpurger
  exact ⟨a, provisioned_of_newcomer ha, (hearly _ hbare).mpr hlast, hbare, hadvertised,
    hlate hordered _ hadvertised⟩

end Example

end Network

end MultiDevice
