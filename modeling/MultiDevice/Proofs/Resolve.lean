import MultiDevice.Directory.Resolve

/-!
# Which devices a lookup finds

Accounts are looked up one after the other. A lookup that succeeds finds the devices of all of them
that count, and no others; one that fails does so for a reason that has to do with lookups. It
succeeds when every account can be looked up and there is time for all of them.

## Main definitions

* `Advertisement.Counts`: when an entry of a device list counts
* `Directory.HasCurrent`: a device is on the list of its account, with an entry that counts
* `Directory.Answers`: an account can be looked up

## Main results

* `Directory.mem_of_resolve`: the devices that are found
* `Directory.area?_of_resolve`: why a lookup fails
* `Directory.exists_resolve_iff`: when a lookup succeeds
* `Directory.resolve_exact`: what a lookup comes to, and that of a union of accounts
-/

namespace MultiDevice

/-- A set with one more element has that element and the elements from before. -/
theorem mem_insert_iff {α : Type} {cmp : α → α → Ordering} [Std.TransCmp cmp] [Std.LawfulEqCmp cmp]
    {elements : Std.ExtTreeSet α cmp} {a b : α} :
    b ∈ elements.insert a ↔ b = a ∨ b ∈ elements := by
  rw [Std.ExtTreeSet.mem_insert, Std.LawfulEqCmp.compare_eq_iff_eq, eq_comm]

/-- An entry counts when the device takes part, has a bundle if it must, and was not inactive for
too long: its last activity, if it is known and matters, is to come or does not lie back too far. -/
structure Advertisement.Counts (a : Advertisement) (p : StalenessPolicy) (now : Time) : Prop where
  takesPart : a.withdrawn = false
  bundle : p.requireBundle = true → a.hasBundle = true
  active : ∀ longest lastActive, p.maxInactivity = some longest → a.lastActive = some lastActive →
    now.nanoseconds < lastActive.nanoseconds ∨
      now.nanoseconds - lastActive.nanoseconds ≤ longest.nanoseconds

theorem Advertisement.isFresh_iff {a : Advertisement} {longest : Option Duration} {now : Time} :
    a.isFresh longest now = true ↔ ∀ limit lastActive, longest = some limit →
      a.lastActive = some lastActive → now.nanoseconds < lastActive.nanoseconds ∨
        now.nanoseconds - lastActive.nanoseconds ≤ limit.nanoseconds := by
  unfold isFresh
  split
  · next limit lastActive hlastActive =>
    have hsince : (now.since lastActive).nanoseconds ≤ limit.nanoseconds ↔
        now.nanoseconds < lastActive.nanoseconds ∨
          now.nanoseconds - lastActive.nanoseconds ≤ limit.nanoseconds := by
      simp only [Time.since]
      omega
    rw [decide_eq_true_iff, hsince, hlastActive]
    simp
  · next hunlimited =>
    simp only [true_iff]
    intro limit lastActive hlimit hlastActive
    exact absurd hlastActive (hunlimited limit lastActive hlimit)

theorem Advertisement.isCurrent_iff {a : Advertisement} {p : StalenessPolicy} {now : Time} :
    a.isCurrent p now = true ↔ a.Counts p now := by
  rw [isCurrent, Bool.and_eq_true, Bool.and_eq_true, isFresh_iff, Bool.not_eq_true',
    Bool.or_eq_true, Bool.not_eq_true']
  constructor
  · rintro ⟨⟨hpart, hbundle⟩, hactive⟩
    refine ⟨hpart, fun hrequired => ?_, hactive⟩
    rcases hbundle with hbundle | hnot
    · exact hbundle
    · rw [hrequired] at hnot
      cases hnot
  · rintro ⟨hpart, hbundle, hactive⟩
    refine ⟨⟨hpart, ?_⟩, hactive⟩
    cases hrequired : p.requireBundle with
    | false => exact .inr rfl
    | true => exact .inl (hbundle hrequired)

namespace Directory

variable {d : Directory} {p : StalenessPolicy} {now : Time} {limit elapsed : Duration}
  {account : Account} {devices : DeviceSet}

/-- A device is on the list of its account, with an entry that counts. -/
def HasCurrent (d : Directory) (p : StalenessPolicy) (now : Time) (device : DeviceAddress) : Prop :=
  ∃ a ∈ d.devicesOf device.account, a.device = device.device ∧ a.isCurrent p now

/-- A list that can be looked up is the one published. -/
theorem eq_of_listDevices {entries : List Advertisement} (h : d.listDevices account = .ok entries) :
    entries = d.devicesOf account := by
  unfold listDevices at h
  split at h
  · cases h
  · split at h
    · cases h
    · cases h
      rfl

/-- The devices of one account that count are those with an entry that counts. -/
theorem mem_of_currentDevices {found : List DeviceAddress}
    (h : d.currentDevices p now account = .ok found) {device : DeviceAddress} :
    device ∈ found ↔ device.account = account ∧ d.HasCurrent p now device := by
  unfold currentDevices at h
  cases hl : d.listDevices account with
  | error err =>
    rw [hl] at h
    cases h
  | ok entries =>
    rw [hl] at h
    cases h
    rw [eq_of_listDevices hl, List.mem_map]
    constructor
    · rintro ⟨a, ha, rfl⟩
      obtain ⟨hmem, hcurrent⟩ := List.mem_filter.mp ha
      exact ⟨rfl, a, hmem, rfl, hcurrent⟩
    · rintro ⟨rfl, a, hmem, hdevice, hcurrent⟩
      refine ⟨a, List.mem_filter.mpr ⟨hmem, hcurrent⟩, ?_⟩
      rw [hdevice]

/-- The first account is looked up in time and without failure, and then the others are. -/
theorem exists_of_resolveList_cons {rest : List Account}
    (h : d.resolveList p now limit elapsed (account :: rest) = .ok devices) :
    ∃ found others, (elapsed.add (d.lookupTime account)).nanoseconds ≤ limit.nanoseconds ∧
      d.currentDevices p now account = .ok found ∧
      d.resolveList p now limit (elapsed.add (d.lookupTime account)) rest = .ok others ∧
      devices = others.insertMany found := by
  rw [resolveList] at h
  split at h
  · cases h
  · next hin =>
    split at h
    · cases h
    · next found hfound =>
      cases hr : d.resolveList p now limit (elapsed.add (d.lookupTime account)) rest with
      | error err =>
        rw [hr] at h
        cases h
      | ok others =>
        rw [hr] at h
        cases h
        exact ⟨found, others, Nat.le_of_not_lt hin, hfound, rfl, rfl⟩

theorem mem_of_resolveList {accounts : List Account}
    (h : d.resolveList p now limit elapsed accounts = .ok devices) {device : DeviceAddress} :
    device ∈ devices ↔ device.account ∈ accounts ∧ d.HasCurrent p now device := by
  -- Induction on the accounts to be looked up, after any time.
  induction accounts generalizing elapsed devices with
  | nil =>
    cases h
    simp
  | cons account rest ih =>
    obtain ⟨found, others, -, hfound, hothers, rfl⟩ := exists_of_resolveList_cons h
    rw [Std.ExtTreeSet.mem_insertMany_list, List.contains_iff_mem, ih hothers,
      mem_of_currentDevices hfound, List.mem_cons, or_and_right, or_comm]

/-- The devices that are found are those on the list of one of the accounts, with an entry that
counts. -/
theorem mem_of_resolve {accounts : AccountSet} (h : d.resolve p now limit accounts = .ok devices)
    {device : DeviceAddress} :
    device ∈ devices ↔ device.account ∈ accounts ∧ d.HasCurrent p now device := by
  rw [mem_of_resolveList h, Std.ExtTreeSet.mem_toList]

/-- A failed lookup is reported as one, whatever the directory fails with. -/
theorem area?_resolutionFailure (account : Account) (err : Error) :
    (resolutionFailure account err).area? = some .resolution := by
  unfold resolutionFailure
  split
  · assumption
  · rfl

theorem area?_of_currentDevices {err : Error} (h : d.currentDevices p now account = .error err) :
    err.area? = some .resolution := by
  unfold currentDevices at h
  split at h
  · cases h
    exact area?_resolutionFailure account _
  · cases h

theorem area?_of_resolveList {accounts : List Account} {err : Error}
    (h : d.resolveList p now limit elapsed accounts = .error err) :
    err.area? = some .resolution := by
  induction accounts generalizing elapsed with
  | nil => cases h
  | cons account rest ih =>
    rw [resolveList] at h
    split at h
    · cases h
      rfl
    · split at h
      · next hfailed =>
        cases h
        exact area?_of_currentDevices hfailed
      · cases hr : d.resolveList p now limit (elapsed.add (d.lookupTime account)) rest with
        | error err' =>
          rw [hr] at h
          cases h
          exact ih hr
        | ok others =>
          rw [hr] at h
          cases h

/-- A lookup fails for a reason that has to do with lookups. -/
theorem area?_of_resolve {accounts : AccountSet} {err : Error}
    (h : d.resolve p now limit accounts = .error err) : err.area? = some .resolution :=
  area?_of_resolveList h

/-! ## When a lookup succeeds -/

/-- The device list of an account can be looked up. -/
def Answers (d : Directory) (account : Account) : Prop :=
  d.faults[account]? = none ∧ account ∉ d.failingAccounts

theorem answers_iff : d.Answers account ↔ d.listDevices account = .ok (d.devicesOf account) := by
  unfold listDevices
  constructor
  · rintro ⟨hfault, hfailing⟩
    rw [hfault]
    exact if_neg hfailing
  · intro h
    split at h
    · cases h
    · next hfault =>
      split at h
      · cases h
      · next hfailing => exact ⟨hfault, hfailing⟩

/-- The devices of an account are found exactly when it can be looked up. -/
theorem exists_currentDevices_iff :
    (∃ found, d.currentDevices p now account = .ok found) ↔ d.Answers account := by
  rw [answers_iff]
  unfold currentDevices
  constructor
  · rintro ⟨found, h⟩
    cases hlist : d.listDevices account with
    | error err =>
      rw [hlist] at h
      cases h
    | ok entries => rw [eq_of_listDevices hlist]
  · intro hlist
    rw [hlist]
    exact ⟨_, rfl⟩

theorem add_lookupTime (h : d.Answers account) :
    (elapsed.add (d.lookupTime account)).nanoseconds =
      elapsed.nanoseconds + d.latency.nanoseconds := by
  have hfault : account ∉ d.faults := by
    rw [Std.ExtTreeMap.mem_iff_isSome_getElem?, h.1]
    exact Bool.false_ne_true
  rw [lookupTime, if_neg hfault]
  rfl

/-- Looking up the first account in time and without failure leaves the others to be looked up. -/
theorem resolveList_cons_of_ok {rest : List Account} {found : List DeviceAddress}
    (hin : (elapsed.add (d.lookupTime account)).nanoseconds ≤ limit.nanoseconds)
    (hfound : d.currentDevices p now account = .ok found) :
    d.resolveList p now limit elapsed (account :: rest) =
      (d.resolveList p now limit (elapsed.add (d.lookupTime account)) rest).map fun devices =>
        devices.insertMany found := by
  rw [resolveList, if_neg (Nat.not_lt.mpr hin), hfound]

/-- Accounts that are looked up one after the other are found exactly when each of them can be
looked up and there is time for all. -/
theorem exists_resolveList_iff {accounts : List Account}
    (hin : elapsed.nanoseconds ≤ limit.nanoseconds) :
    (∃ devices, d.resolveList p now limit elapsed accounts = .ok devices) ↔
      (∀ account ∈ accounts, d.Answers account) ∧
        elapsed.nanoseconds + accounts.length * d.latency.nanoseconds ≤ limit.nanoseconds := by
  -- Induction on the accounts to be looked up, after any time that is within the limit.
  induction accounts generalizing elapsed with
  | nil => simpa [resolveList] using hin
  | cons account rest ih =>
    rw [List.forall_mem_cons, List.length_cons, Nat.succ_mul]
    constructor
    · rintro ⟨devices, h⟩
      obtain ⟨found, others, hin', hfound, hothers, -⟩ := exists_of_resolveList_cons h
      have haccount := exists_currentDevices_iff.mp ⟨found, hfound⟩
      obtain ⟨hrest, htime⟩ := (ih hin').mp ⟨others, hothers⟩
      rw [add_lookupTime haccount] at htime
      exact ⟨⟨haccount, hrest⟩, by omega⟩
    · rintro ⟨⟨haccount, hrest⟩, htime⟩
      have hadd : (elapsed.add (d.lookupTime account)).nanoseconds =
          elapsed.nanoseconds + d.latency.nanoseconds := add_lookupTime haccount
      obtain ⟨found, hfound⟩ := exists_currentDevices_iff.mpr haccount
      have hin' : (elapsed.add (d.lookupTime account)).nanoseconds ≤ limit.nanoseconds := by
        omega
      obtain ⟨others, hothers⟩ := (ih hin').mpr ⟨hrest, by omega⟩
      rw [resolveList_cons_of_ok hin' hfound, hothers]
      exact ⟨_, rfl⟩

/-- The accounts of a set are found exactly when each of them can be looked up and there is time for
all. -/
theorem exists_resolve_iff {accounts : AccountSet} :
    (∃ devices, d.resolve p now limit accounts = .ok devices) ↔
      (∀ account ∈ accounts, d.Answers account) ∧
        accounts.size * d.latency.nanoseconds ≤ limit.nanoseconds := by
  refine (exists_resolveList_iff (Nat.zero_le _)).trans ?_
  simp only [Nat.zero_add, Std.ExtTreeSet.length_toList, Std.ExtTreeSet.mem_toList]

/-- What is found is the same whatever time the lookups take, if they end in time. -/
theorem resolve_eq_ok_iff {accounts : AccountSet} :
    d.resolve p now limit accounts = .ok devices ↔
      ((∀ account ∈ accounts, d.Answers account) ∧
        accounts.size * d.latency.nanoseconds ≤ limit.nanoseconds) ∧
      ∀ device, device ∈ devices ↔ device.account ∈ accounts ∧ d.HasCurrent p now device := by
  constructor
  · intro h
    exact ⟨exists_resolve_iff.mp ⟨devices, h⟩, fun device => mem_of_resolve h⟩
  · rintro ⟨hanswers, hmem⟩
    obtain ⟨found, hfound⟩ := exists_resolve_iff.mpr hanswers
    have hsame : found = devices := Std.ExtTreeSet.ext_mem fun device =>
      (mem_of_resolve hfound).trans (hmem device).symm
    rw [hfound, hsame]

/-- Without delay the accounts of two sets are found together exactly when they are found
separately, and so are their devices. -/
theorem resolve_union {accounts others : AccountSet} (hlatency : d.latency = .zero) :
    d.resolve p now limit (accounts ∪ others) = .ok devices ↔
      ∃ found more, d.resolve p now limit accounts = .ok found ∧
        d.resolve p now limit others = .ok more ∧ devices = found ∪ more := by
  have hquick : ∀ size, size * d.latency.nanoseconds ≤ limit.nanoseconds := by
    intro size
    rw [hlatency]
    exact Nat.zero_le _
  constructor
  · intro h
    obtain ⟨⟨hanswers, -⟩, hmem⟩ := resolve_eq_ok_iff.mp h
    obtain ⟨found, hfound⟩ := exists_resolve_iff.mpr ⟨fun account haccount =>
      hanswers account (Std.ExtTreeSet.mem_union_iff.mpr (.inl haccount)), hquick accounts.size⟩
    obtain ⟨more, hmore⟩ := exists_resolve_iff.mpr ⟨fun account haccount =>
      hanswers account (Std.ExtTreeSet.mem_union_iff.mpr (.inr haccount)), hquick others.size⟩
    refine ⟨found, more, hfound, hmore, Std.ExtTreeSet.ext_mem fun device => ?_⟩
    rw [hmem, Std.ExtTreeSet.mem_union_iff, Std.ExtTreeSet.mem_union_iff, mem_of_resolve hfound,
      mem_of_resolve hmore, or_and_right]
  · rintro ⟨found, more, hfound, hmore, rfl⟩
    obtain ⟨⟨hfirst, -⟩, -⟩ := resolve_eq_ok_iff.mp hfound
    obtain ⟨⟨hsecond, -⟩, -⟩ := resolve_eq_ok_iff.mp hmore
    refine resolve_eq_ok_iff.mpr ⟨⟨fun account haccount => ?_, hquick _⟩, fun device => ?_⟩
    · rcases Std.ExtTreeSet.mem_union_iff.mp haccount with haccount | haccount
      · exact hfirst account haccount
      · exact hsecond account haccount
    · rw [Std.ExtTreeSet.mem_union_iff, Std.ExtTreeSet.mem_union_iff, mem_of_resolve hfound,
        mem_of_resolve hmore, or_and_right]

/-- Looking up accounts succeeds exactly when each of them can be looked up and there is time for
all, and then the devices that are found are those of the accounts with an entry that counts.
Otherwise it fails for a reason that has to do with lookups. Without delay, two sets of accounts are
found together exactly when they are found separately. -/
theorem resolve_exact (d : Directory) (p : StalenessPolicy) (now : Time) (limit : Duration)
    (accounts : AccountSet) :
    ((∃ devices, d.resolve p now limit accounts = .ok devices) ↔
      (∀ account ∈ accounts, d.faults[account]? = none ∧ account ∉ d.failingAccounts) ∧
        accounts.size * d.latency.nanoseconds ≤ limit.nanoseconds) ∧
    (∀ devices, d.resolve p now limit accounts = .ok devices → ∀ device,
      device ∈ devices ↔ device.account ∈ accounts ∧
        ∃ a ∈ d.devicesOf device.account, a.device = device.device ∧ a.Counts p now) ∧
    (∀ err, d.resolve p now limit accounts = .error err → err.area? = some .resolution) ∧
    (d.latency = .zero → ∀ (others : AccountSet) (devices : DeviceSet),
      d.resolve p now limit (accounts ∪ others) = .ok devices ↔
        ∃ found more, d.resolve p now limit accounts = .ok found ∧
          d.resolve p now limit others = .ok more ∧ devices = found ∪ more) := by
  refine ⟨exists_resolve_iff, fun devices h device => ?_, fun err h => area?_of_resolve h,
    fun hlatency others devices => resolve_union hlatency⟩
  simp only [← Advertisement.isCurrent_iff]
  exact mem_of_resolve h

end Directory

end MultiDevice
