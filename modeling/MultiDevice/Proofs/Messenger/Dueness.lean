import MultiDevice.Proofs.Messenger.Rotation

/-!
# Whether a rotation is due right after one

A rotation that waits for its time looks at the age of the key in use, and what it puts in use need
not be new: an unfinished rotation made its key when it was first tried. If that is longer ago than
the rotation interval, the rotation that finishes it is followed by another one at the same time.

## Main definitions

* `Shelf.leftOver?`: the signed pre-key made before that a rotation takes up

## Main results

* `Messenger.exists_of_rotateIfDue`: the key that is in use after a rotation
* `Scene.not_due_iff`: when a rotation is not followed by another one at the same time
-/

namespace MultiDevice

namespace Shelf

variable {k k' : Shelf} {key : SignedPreKey}

/-- The signed pre-key made before that a rotation takes up: the one of an unfinished rotation while
it is kept, else the one that is still kept under the next number once all numbers were used. -/
def leftOver? (k : Shelf) : Option SignedPreKey :=
  (k.pending.bind k.ring.get?).or (k.ring.get? k.ring.nextId)

/-- A rotation takes up what was left over, or a key made now. -/
theorem TakesUp.leftOver (h : k.TakesUp key k') :
    k.leftOver? = some key ∨ k.leftOver? = none ∧ key.createdAt = k.now := by
  cases h with
  | again hpending hkept =>
    left
    have hget : k.pending.bind k.ring.get? = some key := by
      rw [hpending]
      exact hkept
    rw [leftOver?, hget, Option.some_or]
  | anew hnone hcreate =>
    obtain ⟨hkey, -, -⟩ := SignedPreKeyRing.eq_of_create hcreate
    rw [leftOver?, hnone, Option.none_or]
    cases hkept : k.ring.get? k.ring.nextId with
    | some key' =>
      left
      rw [hkey, show k.ring.keys[k.ring.nextId]? = some key' from hkept, Option.getD_some]
    | none =>
      right
      refine ⟨rfl, ?_⟩
      rw [hkey, show k.ring.keys[k.ring.nextId]? = none from hkept, Option.getD_none]

end Shelf

section Due

variable [CipherSuite]

namespace Messenger

/-- After a rotation the key that it took up is in use. -/
theorem exists_of_rotateIfDue {s t : Scene} {id : UInt32} (hr : s.shelf.ring.Sound)
    (h : rotateIfDue s = .ok (some id) t) :
    ∃ key k, s.shelf.TakesUp key k ∧ key.id = id ∧ t.shelf.ring.Sound ∧
      t.messenger.store.signedPreKeys.current? = .ok key := by
  obtain ⟨current, -, hcases⟩ := rotateIfDue_cases s hr
  split at hcases
  · cases hcases.symm.trans h
  rw [hcases] at h
  obtain ⟨id', hrotate, hid⟩ := map_eq_ok_iff.mp h
  cases hid
  rcases rotate_cases s hr with ⟨err, u, herr, -⟩ | ⟨key, k, -, htakes, hends⟩
  · cases herr.symm.trans hrotate
  rcases hends with ⟨err, u, herr, -⟩ | ⟨u, herr, -⟩ | ⟨u, hok, hshelf⟩
  · cases herr.symm.trans hrotate
  · cases herr.symm.trans hrotate
  · cases hok.symm.trans hrotate
    have hcurrent := Shelf.current?_purged_promoted (htakes.kept hr)
    rw [← hshelf] at hcurrent
    exact ⟨key, k, htakes, rfl, hshelf ▸ (Shelf.Step.promoted htakes).sound hr, hcurrent⟩

/-- A rotation that waits for its time does not rotate exactly when the key in use is too young. -/
theorem rotateIfDue_eq_none_iff {s : Scene} {current : SignedPreKey} (hr : s.shelf.ring.Sound)
    (hcurrent : s.messenger.store.signedPreKeys.current? = .ok current) :
    (∃ t, rotateIfDue s = .ok none t) ↔
      (s.now.since current.createdAt).nanoseconds <
        s.messenger.settings.rotationInterval.nanoseconds := by
  obtain ⟨current', hcurrent', hcases⟩ := rotateIfDue_cases s hr
  cases hcurrent.symm.trans hcurrent'
  split at hcases
  · next hyoung => exact ⟨fun _ => hyoung, fun _ => ⟨s, hcases⟩⟩
  · next hold =>
    refine ⟨fun ⟨t, h⟩ => ?_, fun h => absurd h hold⟩
    rw [hcases] at h
    obtain ⟨id, -, hnone⟩ := map_eq_ok_iff.mp h
    cases hnone

end Messenger

/-- After a rotation that waited for its time, another one at the same time does nothing if and only
if the first one made its key, or took up a key that is younger than the rotation interval. Others
may have used the directory in between. -/
theorem Scene.not_due_iff {start t : Scene} (hstart : Provisioned start) (requests : List Request)
    {id : UInt32}
    (hinterval : 0 < (start.run requests).messenger.settings.rotationInterval.nanoseconds)
    (h : Messenger.rotateIfDue (start.run requests) = .ok (some id) t) (directory : Directory)
    (entropy : Entropy) :
    (∃ u, Messenger.rotateIfDue { t with directory, entropy } = .ok none u) ↔
      ∀ key, (start.run requests).shelf.leftOver? = some key →
        ((start.run requests).now.since key.createdAt).nanoseconds <
          (start.run requests).messenger.settings.rotationInterval.nanoseconds := by
  obtain ⟨key, k, htakes, -, hsound, hcurrent⟩ :=
    Messenger.exists_of_rotateIfDue (sound_run hstart requests) h
  have hleaves : Leaves (fun s : Scene => (s.now, s.messenger.settings)) Messenger.rotateIfDue :=
    Messenger.rotateIfDue_leaves
      ⟨fun _ _ _ => rfl, fun _ _ => rfl, fun _ _ => rfl, fun _ _ => rfl, fun _ _ => rfl⟩
  obtain ⟨hnow, hsettings⟩ := Prod.mk.inj (hleaves.eq_of_ok h)
  rw [Messenger.rotateIfDue_eq_none_iff (s := { t with directory, entropy }) hsound hcurrent]
  change (t.now.since key.createdAt).nanoseconds <
    t.messenger.settings.rotationInterval.nanoseconds ↔ _
  rw [hnow, hsettings]
  rcases htakes.leftOver with hleft | ⟨hnone, hmade⟩
  · rw [hleft]
    constructor
    · rintro hyoung key' ⟨⟩
      exact hyoung
    · exact fun hyoung => hyoung key rfl
  · have hage : (start.run requests).now.since key.createdAt = .zero := by
      rw [hmade]
      exact congrArg Duration.mk (by rw [Scene.shelf, Int.sub_self]; rfl)
    rw [hnone, hage]
    exact ⟨fun _ _ hnone => (nomatch hnone), fun _ => hinterval⟩

end Due

section Example

attribute [local instance] CipherSuite.transparent

namespace Scene

/-- Eight days pass. -/
def eightDays : List Request := [.surroundings .empty (.ofEpochSeconds (8 * 86400)) .counting]

/-- With an interval of seven days a rotation is due after eight, and then not at the same time
again, whatever others do in between. -/
theorem not_due_of_eightDays :
    ∃ start t, Provisioned start ∧
      Messenger.rotateIfDue (start.run eightDays) = .ok (some 2) t ∧
      ∀ directory entropy, ∃ u,
        Messenger.rotateIfDue { t with directory, entropy } = .ok none u := by
  have hstart : (rotator? (.ofDays 30)).any fun start =>
      let s := start.run eightDays
      0 < s.messenger.settings.rotationInterval.nanoseconds ∧ s.shelf.leftOver? = none ∧
        answer? Messenger.rotateIfDue s = some (some 2) := by
    decide +kernel
  obtain ⟨start, hsome, hp⟩ := (Option.any_eq_true _ _).mp hstart
  obtain ⟨hinterval, hnone, hanswer⟩ := of_decide_eq_true hp
  obtain ⟨t, ht⟩ := exists_of_answer? hanswer
  have hprovisioned := provisioned_of_joining hsome
  refine ⟨start, t, hprovisioned, ht, fun directory entropy => ?_⟩
  refine (not_due_iff hprovisioned eightDays hinterval ht directory entropy).mpr fun key hkey => ?_
  rw [hnone] at hkey
  cases hkey

/-- After eight days a rotation fails because the directory refuses publications, and another eight
days pass. -/
def delayed : List Request :=
  [.surroundings { Directory.empty with refusesPublication := true }
      (.ofEpochSeconds (8 * 86400)) .counting,
    .rotateIfDue, .surroundings .empty (.ofEpochSeconds (16 * 86400)) .counting]

/-- The rotation that is due then puts the key of eight days ago in use, and so it is followed by
another one at the same time. -/
theorem rotates_twice_of_delayed :
    ∃ start t u, Provisioned start ∧
      0 < (start.run delayed).messenger.settings.rotationInterval.nanoseconds ∧
      Messenger.rotateIfDue (start.run delayed) = .ok (some 2) t ∧
      Messenger.rotateIfDue t = .ok (some 3) u ∧ ¬ ∃ u, Messenger.rotateIfDue t = .ok none u := by
  have hstart : (rotator? (.ofDays 30)).any fun start =>
      let s := start.run delayed
      0 < s.messenger.settings.rotationInterval.nanoseconds ∧
        answer? Messenger.rotateIfDue s = some (some 2) ∧
        answer? Messenger.rotateIfDue (endState Messenger.rotateIfDue s) = some (some 3) := by
    decide +kernel
  obtain ⟨start, hsome, hp⟩ := (Option.any_eq_true _ _).mp hstart
  obtain ⟨hinterval, hfirst, hsecond⟩ := of_decide_eq_true hp
  obtain ⟨t, ht⟩ := exists_of_answer? hfirst
  rw [endState_of_ok ht] at hsecond
  obtain ⟨u, hu⟩ := exists_of_answer? hsecond
  refine ⟨start, t, u, provisioned_of_joining hsome, hinterval, ht, hu, fun ⟨v, hv⟩ => ?_⟩
  cases hu.symm.trans hv

end Scene

end Example

end MultiDevice
