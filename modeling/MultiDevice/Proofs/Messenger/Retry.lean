import Mathlib.Data.List.Induction
import MultiDevice.Proofs.Messenger.Rotation

/-!
# Rotations that are tried again

A rotation that fails to publish its signed pre-key, or to look up the own device list, leaves a
note of the key, and the next rotation takes up the same one. So one key is made however often a
rotation fails and at whichever stage, and whatever else is asked of the device in between.

## Main definitions

* `Scene.HasUsed`: a signed pre-key was in use in the course of a run
* `Shelf.Accounts`: every key that is kept was in use, or is noted for an unfinished rotation
* `Request.takesUp?`, `Request.makes?`: the signed pre-key that a rotation takes up, and makes
* `Request.staysUnfinished`, `Scene.staysUnfinished`: requests and runs that finish no rotation
* `Shelf.Underway`: what unfinished rotations make of the signed pre-keys

## Main results

* `Scene.accounts_run`: what a device keeps for an unfinished rotation
* `Scene.nextId_notMem`: the next number is free while not all numbers were given out
* `Scene.run_underway`: what a run that finishes no rotation does with the signed pre-keys
* `Scene.exists_made_once`: rotations that are tried again make one key
-/

namespace MultiDevice

/-! ## Keys that were in use -/

/-- A signed pre-key was in use at the beginning of a run or after some request of it. -/
def Scene.HasUsed [CipherSuite] (start : Scene) (requests : List Request) (key : SignedPreKey) :
    Prop :=
  ∃ front, front <+: requests ∧
    (start.run front).messenger.store.signedPreKeys.current? = .ok key

theorem Scene.HasUsed.mono [CipherSuite] {start : Scene} {front requests : List Request}
    {key : SignedPreKey} (h : start.HasUsed front key) (hfront : front <+: requests) :
    start.HasUsed requests key := by
  obtain ⟨part, hpart, hkey⟩ := h
  exact ⟨part, hpart.trans hfront, hkey⟩

theorem SignedPreKeyRing.current?_of_kept {r : SignedPreKeyRing} {key : SignedPreKey}
    (h : r.keys[r.current]? = some key) : r.current? = .ok key := by
  rw [current?, h]

namespace Shelf

variable {used : SignedPreKey → Prop} {k k' : Shelf} {key : SignedPreKey} {id : UInt32} {n : Nat}

/-- Every key that is kept was in use, or is noted for an unfinished rotation. -/
def Accounts (used : SignedPreKey → Prop) (k : Shelf) : Prop :=
  ∀ (id : UInt32) (key : SignedPreKey), k.ring.keys[id]? = some key →
    used key ∨ k.pending = some id

theorem getElem?_of_purged (h : k.purged.ring.keys[id]? = some key) :
    k.ring.keys[id]? = some key :=
  (k.ring.purge_drops k.now).keys id key h

/-- What is kept once a rotation took up a key is that key, or it was kept before. -/
theorem TakesUp.of_kept (h : k.TakesUp key k') {id : UInt32} {kept : SignedPreKey}
    (hkept : k'.ring.keys[id]? = some kept) : kept = key ∨ k.ring.keys[id]? = some kept := by
  cases h with
  | again => exact .inr hkept
  | anew hnone hcreate =>
    obtain ⟨-, hring, -⟩ := SignedPreKeyRing.eq_of_create hcreate
    rw [hring] at hkept
    rcases Entries.of_insert hkept with ⟨-, hkey⟩ | ⟨-, hold⟩
    · exact .inl hkey
    · exact .inr hold

theorem TakesUp.accounts (h : k.TakesUp key k') (hr : k.ring.Sound) (hk : k.Accounts used) :
    k'.Accounts used := by
  intro id kept hkept
  have hpending := h.pending
  have hid : kept.id = id := (h.sound hr).filed id kept hkept
  rcases h.of_kept hkept with rfl | hold
  · exact .inr (hid ▸ hpending)
  cases h with
  | again => exact hk id kept hold
  | anew hnone hcreate =>
    refine .inl ((hk id kept hold).resolve_right fun hpending => ?_)
    rw [hpending] at hnone
    cases hnone.symm.trans hold

/-- Whatever a request does, a key that is kept was in use, is noted for an unfinished rotation, or
is in use now. -/
theorem Step.accounts (h : k.Step k') (hr : k.ring.Sound) (hk : k.Accounts used) {id : UInt32}
    {kept : SignedPreKey} (hkept : k'.ring.keys[id]? = some kept) :
    used kept ∨ k'.pending = some id ∨ id = k'.ring.current := by
  have hused : ∀ {k₁ : Shelf} {key : SignedPreKey}, k.TakesUp key k₁ →
      k₁.ring.keys[id]? = some kept → used kept ∨ id = key.id := by
    intro k₁ key htakes hkept
    refine (htakes.accounts hr hk id kept hkept).imp_right fun hpending => ?_
    exact Option.some.inj (hpending.symm.trans htakes.pending)
  cases h with
  | stay now => exact (hk id kept hkept).imp_right .inl
  | purged => exact (hk id kept (getElem?_of_purged hkept)).imp_right .inl
  | takesUp htakes => exact (htakes.accounts hr hk id kept hkept).imp_right .inl
  | switched htakes => exact (hused htakes hkept).imp_right .inr
  | promoted htakes =>
    have hkept' := getElem?_of_purged hkept
    exact (hused htakes hkept').imp_right .inr
  | restarted hstart =>
    obtain ⟨rfl, -⟩ := SignedPreKeyRing.eq_of_startingAt hstart
    rcases Entries.of_insert hkept with ⟨hid, -⟩ | ⟨-, hnone⟩
    · exact .inr (.inr hid)
    · cases hnone

/-- Whatever a request does, it gives out at most one number. -/
theorem Step.numbered (h : k.Step k') (hr : k.ring.Sound) (hk : k.ring.Numbered n)
    (hroom : n + 1 < UInt32.size) : k'.ring.Numbered (n + 1) := by
  have htakesUp : ∀ {k₁ : Shelf} {key : SignedPreKey}, k.TakesUp key k₁ →
      k₁.ring.Numbered (n + 1) := by
    rintro k₁ key (⟨-, -⟩ | ⟨-, hcreate⟩)
    · exact hk.mono n.le_succ
    · exact (hk.create hroom hcreate).1
  have hpurged : ∀ {k₁ : Shelf}, k₁.ring.Numbered (n + 1) → k₁.purged.ring.Numbered (n + 1) :=
    fun hk₁ => hk₁.of_subset rfl (fun id hid => (mem_purged_keys.mp hid).1)
      fun id hid => .inl (mem_purged_expiries.mp hid).1
  cases h with
  | stay now => exact hk.mono n.le_succ
  | purged => exact hpurged (hk.mono n.le_succ)
  | takesUp htakes => exact htakesUp htakes
  | switched htakes =>
    exact (htakesUp htakes).of_subset rfl (fun _ hid => hid)
      fun id hid => .inl (Entries.mem_erase_iff.mp hid).2
  | promoted htakes =>
    refine hpurged ((htakesUp htakes).of_subset rfl (fun _ hid => hid) fun id hid => ?_)
    obtain ⟨expiry, hexpiry⟩ := Entries.exists_of_mem hid
    rcases (promoted_expiry hexpiry).2 with ⟨-, rfl, -⟩ | hold
    · exact .inr (htakes.sound hr).current_mem
    · exact .inl (Entries.mem_of_getElem? hold)
  | restarted hstart => exact hk.startingAt hroom hstart

end Shelf

namespace Scene

variable [CipherSuite] {start : Scene}

/-- **What a device keeps for an unfinished rotation.** Every other key that it keeps was in use
before. -/
theorem accounts_run (hstart : Provisioned start) (requests : List Request) :
    (start.run requests).shelf.Accounts (start.HasUsed requests) := by
  -- Induction from the end: what is in use after the last request is then among the keys used.
  induction requests using List.reverseRecOn with
  | nil =>
    intro id key hkey
    rcases hstart.keeps.retains.accounted id (Entries.mem_of_getElem? hkey) with
      rfl | hpending | hexpiry
    · exact .inl ⟨[], List.prefix_rfl, SignedPreKeyRing.current?_of_kept hkey⟩
    · exact .inr hpending
    · obtain ⟨expiry, hexpiry⟩ := Entries.exists_of_mem hexpiry
      obtain ⟨x, hx, -⟩ := hstart.keeps.retains.scheduled id expiry hexpiry
      cases hx
  | append_singleton requests request ih =>
    intro id key hkey
    rw [run_append] at hkey ⊢
    have hsound := sound_run hstart requests
    rcases (request.perform_step hsound).accounts hsound ih hkey with hused | hpending | rfl
    · exact .inl (hused.mono (List.prefix_append _ _))
    · exact .inr hpending
    · refine .inl ⟨requests ++ [request], List.prefix_rfl, ?_⟩
      rw [run_append]
      exact SignedPreKeyRing.current?_of_kept hkey

/-- When no rotation is unfinished, every key that is kept was in use. -/
theorem hasUsed_of_kept (hstart : Provisioned start) {requests : List Request}
    (hpending : (start.run requests).messenger.pendingRotation = none) {number : UInt32}
    {kept : SignedPreKey}
    (hkept : (start.run requests).shelf.ring.keys[number]? = some kept) :
    start.HasUsed requests kept := by
  refine (accounts_run hstart requests number kept hkept).resolve_right fun hnoted => ?_
  cases hpending.symm.trans hnoted

theorem numbered_run (hstart : Provisioned start) (requests : List Request)
    (hroom : 2 + requests.length < UInt32.size) :
    (start.run requests).shelf.ring.Numbered (2 + requests.length) := by
  induction requests using List.reverseRecOn with
  | nil => exact (hstart.keeps.reserves hroom).numbered
  | append_singleton requests request ih =>
    rw [List.length_append] at hroom ⊢
    rw [run_append]
    have hsound := sound_run hstart requests
    exact (request.perform_step hsound).numbered hsound (ih (Nat.lt_of_succ_lt hroom)) hroom

/-- No key is kept under the next number as long as fewer requests were made than there are
numbers. -/
theorem nextId_notMem (hstart : Provisioned start) (requests : List Request)
    (hroom : 2 + requests.length < UInt32.size) :
    (start.run requests).shelf.ring.nextId ∉ (start.run requests).shelf.ring.keys :=
  fun hmem => Nat.lt_irrefl _ ((numbered_run hstart requests hroom).id_lt _ hmem)

end Scene

/-! ## Unfinished rotations -/

/-- What unfinished rotations make of the signed pre-keys. Some that were there may have been
dropped, and once a rotation took up a key there is a new one, which is noted and not to be
dropped. -/
structure Shelf.Underway (base : Shelf) (made : Option SignedPreKey) (k : Shelf) : Prop where
  sound : k.ring.Sound
  pending : k.pending = made.map SignedPreKey.id
  nextId : k.ring.nextId = base.ring.nextId + made.elim 0 fun _ => 1
  id_eq : ∀ key, made = some key → key.id = base.ring.nextId
  kept : ∀ key, made = some key → k.ring.keys[key.id]? = some key ∧ key.id ∉ k.ring.expiries
  former : ∀ (id : UInt32) (key : SignedPreKey), k.ring.keys[id]? = some key →
    made = some key ∨ base.ring.keys[id]? = some key

namespace Shelf.Underway

variable {base k k' : Shelf} {made : Option SignedPreKey} {key : SignedPreKey}

theorem refl (hr : base.ring.Sound) (hpending : base.pending = none) : base.Underway none base where
  sound := hr
  pending := hpending
  nextId := (UInt32.add_zero _).symm
  id_eq := nofun
  kept := nofun
  former _ _ hkept := .inr hkept

theorem later (h : base.Underway made k) (now : Time) : base.Underway made { k with now } :=
  ⟨h.sound, h.pending, h.nextId, h.id_eq, h.kept, h.former⟩

/-- A cleanup does not drop the new key. -/
theorem purged (h : base.Underway made k) : base.Underway made k.purged where
  sound := sound_purged h.sound
  pending := h.pending
  nextId := h.nextId
  id_eq := h.id_eq
  kept key hkey := by
    obtain ⟨hkept, hexpiry⟩ := h.kept key hkey
    have hdue : k.ring.isDue k.now key.id = false := by
      refine (Bool.not_eq_true _).mp fun hdue => ?_
      obtain ⟨-, expiry, hscheduled, -⟩ := SignedPreKeyRing.isDue_iff.mp hdue
      exact hexpiry (Entries.mem_of_getElem? hscheduled)
    exact ⟨Entries.getElem?_filter_iff.mpr ⟨hkept, (Bool.not_eq_true' _).mpr hdue⟩,
      fun hscheduled => hexpiry (mem_purged_expiries.mp hscheduled).1⟩
  former id key hkept := h.former id key (getElem?_of_purged hkept)

/-- What there is of an unfinished rotation is the new key. -/
theorem resumes (h : base.Underway made k) : k.pending.bind k.ring.get? = made := by
  rw [h.pending]
  cases made with
  | none => rfl
  | some key => exact (h.kept key rfl).1

/-- The first rotation takes up a new key, and the others take up the same one. -/
theorem takesUp (h : base.Underway made k) (hfree : base.ring.nextId ∉ base.ring.keys)
    (htakes : k.TakesUp key k') :
    base.Underway (some key) k' ∧ (made = none ∨ made = some key) := by
  have hresumes := h.resumes
  cases htakes with
  | again hpending hkept =>
    rw [hpending] at hresumes
    cases hresumes.symm.trans hkept
    exact ⟨h, .inr rfl⟩
  | anew hnone hcreate =>
    cases hresumes.symm.trans hnone
    have hnext : k.ring.nextId = base.ring.nextId := h.nextId.trans (UInt32.add_zero _)
    have hunused : k.ring.nextId ∉ k.ring.keys := by
      intro hmem
      obtain ⟨kept, hkept⟩ := Entries.exists_of_mem hmem
      rcases h.former _ _ hkept with hnone | hold
      · cases hnone
      · exact hfree (hnext ▸ Entries.mem_of_getElem? hold)
    have hsound := h.sound.create hcreate
    obtain ⟨hkey, rfl, -⟩ := SignedPreKeyRing.eq_of_create hcreate
    have hid : key.id = k.ring.nextId := hkey ▸ h.sound.filed.id_next _ _
    refine ⟨⟨hsound, rfl, ?_, ?_, ?_, ?_⟩, .inl rfl⟩
    · exact congrArg (· + 1) hnext
    · rintro _ ⟨⟩
      exact hid.trans hnext
    · rintro _ ⟨⟩
      rw [hid]
      exact ⟨Std.ExtTreeMap.getElem?_insert_self,
        fun hexpiry => hunused (h.sound.expiry_mem _ hexpiry)⟩
    · intro id kept hkept
      rcases Entries.of_insert hkept with ⟨-, rfl⟩ | ⟨-, hold⟩
      · exact .inl rfl
      · exact .inr ((h.former id kept hold).resolve_left nofun)

end Shelf.Underway

/-! ## What rotations take up -/

section Attempts

variable [CipherSuite]

/-- The signed pre-key that a request takes up, if it is a rotation. -/
def Request.takesUp? (request : Request) (s : Scene) : Option SignedPreKey :=
  match request with
  | .rotate => answer? Messenger.nextSignedPreKey s
  | .rotateIfDue =>
    if answer? Messenger.rotateIfDue s = some none then none
    else answer? Messenger.nextSignedPreKey s
  | _ => none

/-- The signed pre-key that a request makes, if it is a rotation and there is no key of an
unfinished one. -/
def Request.makes? (request : Request) (s : Scene) : Option SignedPreKey :=
  if (s.shelf.pending.bind s.shelf.ring.get?).isSome then none else request.takesUp? s

/-- A request finishes no rotation and does not start afresh: if it is a rotation, it fails to
publish or to look up. -/
def Request.staysUnfinished (request : Request) (s : Scene) : Bool :=
  match request with
  | .rotate => (failure? Messenger.rotate s).any Error.isRetryable
  | .rotateIfDue => (failure? Messenger.rotateIfDue s).any Error.isRetryable
  | .regenerate => false
  | _ => true

namespace Scene

/-- No request of a run finishes a rotation or starts afresh. -/
def staysUnfinished : List Request → Scene → Bool
  | [], _ => true
  | request :: rest, s => request.staysUnfinished s && staysUnfinished rest (request.perform s)

/-- What the requests of a run yield, one after another. -/
def gather (yield? : Request → Scene → Option SignedPreKey) : List Request → Scene →
    List SignedPreKey
  | [], _ => []
  | request :: rest, s => (yield? request s).toList ++ gather yield? rest (request.perform s)

/-- The signed pre-keys that the rotations of a run take up. -/
def takenUp (requests : List Request) (s : Scene) : List SignedPreKey :=
  s.gather Request.takesUp? requests

/-- The signed pre-keys that the rotations of a run make. -/
def made (requests : List Request) (s : Scene) : List SignedPreKey :=
  s.gather Request.makes? requests

theorem gather_append (yield? : Request → Scene → Option SignedPreKey)
    (front back : List Request) (s : Scene) :
    s.gather yield? (front ++ back) =
      s.gather yield? front ++ (s.run front).gather yield? back := by
  induction front generalizing s with
  | nil => rfl
  | cons request rest ih =>
    rw [List.cons_append, gather, gather, ih, List.append_assoc, run_cons]

theorem gather_concat (yield? : Request → Scene → Option SignedPreKey) (requests : List Request)
    (request : Request) (s : Scene) :
    s.gather yield? (requests ++ [request]) =
      s.gather yield? requests ++ (yield? request (s.run requests)).toList := by
  rw [gather_append, gather, gather, List.append_nil]

theorem staysUnfinished_append (front back : List Request) (s : Scene) :
    s.staysUnfinished (front ++ back) =
      (s.staysUnfinished front && (s.run front).staysUnfinished back) := by
  induction front generalizing s with
  | nil => rfl
  | cons request rest ih =>
    rw [List.cons_append, staysUnfinished, staysUnfinished, ih, Bool.and_assoc, run_cons]

end Scene

variable {s : Scene} {key : SignedPreKey} {request : Request} {id : UInt32}

/-- A rotation that waits for its time does as a rotation does, or it is not due. -/
theorem Request.rotation_eq (hr : s.shelf.ring.Sound) (hrotation : request.isRotation = true) :
    (request.staysUnfinished s = false ∧ request.rotatesTo? s = none) ∨
      (request.takesUp? s = answer? Messenger.nextSignedPreKey s ∧
        request.staysUnfinished s = (failure? Messenger.rotate s).any Error.isRetryable ∧
        request.rotatesTo? s = answer? Messenger.rotate s ∧
        request.perform s = endState Messenger.rotate s) := by
  cases request with
  | rotate => exact .inr ⟨rfl, rfl, rfl, rfl⟩
  | rotateIfDue =>
    obtain ⟨current, -, hcases⟩ := Messenger.rotateIfDue_cases s hr
    split at hcases
    · refine .inl ⟨?_, ?_⟩
      · rw [staysUnfinished, failure?_of_ok hcases]
        rfl
      · rw [rotatesTo?, answer?_of_ok hcases]
        rfl
    · have hanswer : answer? Messenger.rotateIfDue s = (answer? Messenger.rotate s).map some := by
        rw [← answer?_map, answer?, hcases, answer?]
      have hfailure : failure? Messenger.rotateIfDue s = failure? Messenger.rotate s := by
        rw [← failure?_map some Messenger.rotate s, failure?, hcases, failure?]
      have hend : endState Messenger.rotateIfDue s = endState Messenger.rotate s := by
        rw [← endState_map some Messenger.rotate s, endState, hcases, endState]
      refine .inr ⟨?_, ?_, ?_, hend⟩
      · rw [takesUp?, hanswer]
        refine if_neg fun hnone => ?_
        obtain ⟨id, -, hid⟩ := Option.map_eq_some_iff.mp hnone
        cases hid
      · rw [staysUnfinished, hfailure]
      · rw [rotatesTo?, hanswer]
        cases answer? Messenger.rotate s <;> rfl
  | _ => cases hrotation

/-- A rotation that can be tried again has taken up a key and done nothing else. -/
theorem Request.takesUp_of_staysUnfinished (hr : s.shelf.ring.Sound)
    (hrotation : request.isRotation = true) (h : request.staysUnfinished s = true) :
    ∃ key, request.takesUp? s = some key ∧ s.shelf.TakesUp key (request.perform s).shelf := by
  rcases rotation_eq hr hrotation with ⟨hfinished, -⟩ | ⟨htakesUp, hstays, -, hperform⟩
  · cases hfinished.symm.trans h
  rw [htakesUp, hperform]
  rw [hstays] at h
  rcases Messenger.rotate_cases s hr with ⟨err, t, herr, -, hgood⟩ | ⟨key, k, hnext, htakes, hends⟩
  · rw [failure?_of_error herr] at h
    cases hgood.symm.trans h
  refine ⟨key, hnext, ?_⟩
  rcases hends with ⟨err, t, herr, hshelf⟩ | ⟨t, herr, -⟩ | ⟨t, hok, -⟩
  · rw [endState_of_error herr, hshelf]
    exact htakes
  · rw [failure?_of_error herr] at h
    cases h
  · rw [failure?_of_ok hok] at h
    cases h

theorem Request.isRotation_of_rotatesTo (h : request.rotatesTo? s = some id) :
    request.isRotation = true := by
  cases request with
  | rotate => rfl
  | rotateIfDue => rfl
  | _ => cases h

/-- A rotation that succeeds has taken up a key and put it in use. -/
theorem Request.takesUp_of_rotatesTo (hr : s.shelf.ring.Sound)
    (h : request.rotatesTo? s = some id) :
    ∃ key k, request.takesUp? s = some key ∧ s.shelf.TakesUp key k ∧ key.id = id ∧
      (request.perform s).shelf = (k.promoted key.id).purged := by
  rcases rotation_eq hr (isRotation_of_rotatesTo h) with
    ⟨-, hnone⟩ | ⟨htakesUp, -, hrotates, hperform⟩
  · cases hnone.symm.trans h
  rw [htakesUp, hperform]
  rw [hrotates] at h
  rcases Messenger.rotate_cases s hr with ⟨err, t, herr, -⟩ | ⟨key, k, hnext, htakes, hends⟩
  · cases (answer?_of_error herr).symm.trans h
  rcases hends with ⟨err, t, herr, -⟩ | ⟨t, herr, -⟩ | ⟨t, hok, hshelf⟩
  · cases (answer?_of_error herr).symm.trans h
  · cases (answer?_of_error herr).symm.trans h
  · rw [endState_of_ok hok]
    exact ⟨key, k, hnext, htakes, Option.some.inj ((answer?_of_ok hok).symm.trans h), hshelf⟩

/-! ## Runs that finish no rotation -/

variable {base : Shelf} {made : Option SignedPreKey}

/-- A rotation makes the key that it takes up, unless that was made before. -/
theorem Request.makes_of_takesUp (h : base.Underway made s.shelf)
    (htakesUp : request.takesUp? s = some key) (hmade : made = none ∨ made = some key) :
    made.toList ++ (request.makes? s).toList = [key] := by
  rw [makes?, h.resumes, htakesUp]
  rcases hmade with rfl | rfl
  · rfl
  · rfl

/-- A request that finishes no rotation takes up the new key, or no key at all. -/
theorem Request.perform_underway (h : base.Underway made s.shelf)
    (hfree : base.ring.nextId ∉ base.ring.keys) (hstays : request.staysUnfinished s = true) :
    ∃ made', base.Underway made' (request.perform s).shelf ∧
      made.toList ++ (request.makes? s).toList = made'.toList ∧
      (∀ key ∈ request.takesUp? s, made' = some key) ∧
      (request.takesUp? s).toList.length = [request].countP isRotation := by
  cases hrotation : request.isRotation with
  | true =>
    obtain ⟨key, htakesUp, htakes⟩ := takesUp_of_staysUnfinished h.sound hrotation hstays
    obtain ⟨hunderway, hmade⟩ := h.takesUp hfree htakes
    refine ⟨some key, hunderway, makes_of_takesUp h htakesUp hmade, ?_, ?_⟩
    · rw [htakesUp]
      rintro key' hkey'
      exact hkey'
    · rw [htakesUp, List.countP_singleton, hrotation]
      rfl
  | false =>
    have hnone : request.takesUp? s = none := by
      cases request with
      | rotate => cases hrotation
      | rotateIfDue => cases hrotation
      | _ => rfl
    have hmakes : request.makes? s = none := by
      rw [makes?, hnone, ite_self]
    have hunderway : base.Underway made (request.perform s).shelf := by
      rcases request.shelf_perform_cases s with hrotation' | rfl | ⟨now, hshelf⟩ | hshelf
      · cases hrotation.symm.trans hrotation'
      · cases hstays
      · rw [hshelf]
        exact h.later now
      · rw [hshelf]
        exact h.purged
    refine ⟨made, hunderway, ?_, ?_, ?_⟩
    · rw [hmakes]
      exact List.append_nil _
    · rw [hnone]
      nofun
    · rw [hnone, List.countP_singleton, hrotation]
      rfl

/-- **What a run that finishes no rotation does with the signed pre-keys.** -/
theorem Scene.run_underway (h : base.Underway made s.shelf)
    (hfree : base.ring.nextId ∉ base.ring.keys) {requests : List Request}
    (hstays : s.staysUnfinished requests = true) :
    ∃ made', base.Underway made' (s.run requests).shelf ∧
      made.toList ++ s.made requests = made'.toList ∧
      (∀ key ∈ s.takenUp requests, made' = some key) ∧
      (s.takenUp requests).length = requests.countP Request.isRotation := by
  induction requests generalizing s made with
  | nil => exact ⟨made, h, List.append_nil _, nofun, rfl⟩
  | cons request rest ih =>
    obtain ⟨hfirst, hrest⟩ := Bool.and_eq_true_iff.mp hstays
    obtain ⟨made₁, h₁, hmade₁, htaken₁, hlength₁⟩ := Request.perform_underway h hfree hfirst
    obtain ⟨made₂, h₂, hmade₂, htaken₂, hlength₂⟩ := ih h₁ hrest
    have hmono : ∀ {key : SignedPreKey}, made₁ = some key → made₂ = some key := by
      rintro key rfl
      have hmem : key ∈ made₂.toList := hmade₂ ▸ List.mem_cons_self
      exact Option.mem_toList.mp hmem
    refine ⟨made₂, h₂, ?_, ?_, ?_⟩
    · rw [← hmade₂, ← hmade₁, List.append_assoc]
      rfl
    · intro key hkey
      rcases List.mem_append.mp hkey with hkey | hkey
      · exact hmono (htaken₁ key (Option.mem_toList.mp hkey))
      · exact htaken₂ key hkey
    · change ((request.takesUp? s).toList ++ (request.perform s).takenUp rest).length =
        ([request] ++ rest).countP Request.isRotation
      rw [List.length_append, List.countP_append, hlength₁, hlength₂]

/-- What is kept in the course of a run that finishes no rotation is made by that run, or was kept
before. -/
theorem Scene.mem_made_of_kept (hr : s.shelf.ring.Sound) (hpending : s.shelf.pending = none)
    (hfree : s.shelf.ring.nextId ∉ s.shelf.ring.keys) {front requests : List Request}
    (hstays : s.staysUnfinished requests = true) (hfront : front <+: requests) {number : UInt32}
    {kept : SignedPreKey} (hkept : (s.run front).shelf.ring.keys[number]? = some kept) :
    kept ∈ s.made requests ∨ s.shelf.ring.keys[number]? = some kept := by
  obtain ⟨back, rfl⟩ := hfront
  rw [staysUnfinished_append] at hstays
  obtain ⟨hstays, -⟩ := Bool.and_eq_true_iff.mp hstays
  obtain ⟨made, hunderway, hmade, -⟩ := run_underway (.refl hr hpending) hfree hstays
  refine (hunderway.former number kept hkept).imp_left ?_
  rintro rfl
  rw [Option.toList_none, List.nil_append] at hmade
  have hmem : kept ∈ s.made front := by
    rw [hmade]
    exact List.mem_singleton_self kept
  rw [Scene.made, gather_append]
  exact List.mem_append_left _ hmem

/-- **Rotations that are tried again make one key.** Let no rotation be unfinished and the next
number be free, as it is while numbers are left (`Scene.nextId_notMem`). Let any number of rotations
fail to publish or to look up, with other requests in between, and let one succeed. All of them take
up the same key, which is the only one that is made, and the last one answers its number and puts it
in use. All the while no other key is kept that was never in use. -/
theorem Scene.exists_made_once {start : Scene} (hstart : Provisioned start)
    {before retries : List Request} {request : Request} {id : UInt32}
    (hpending : (start.run before).messenger.pendingRotation = none)
    (hfree : (start.run before).shelf.ring.nextId ∉ (start.run before).shelf.ring.keys)
    (hstays : (start.run before).staysUnfinished retries = true)
    (hlast : request.rotatesTo? ((start.run before).run retries) = some id) :
    let s := start.run before
    let requests := retries ++ [request]
    ∃ key, key.id = id ∧ id = s.shelf.ring.nextId ∧
      s.takenUp requests = List.replicate (requests.countP Request.isRotation) key ∧
      s.made requests = [key] ∧
      (s.run requests).shelf.ring.nextId = s.shelf.ring.nextId + 1 ∧
      (s.run requests).shelf.ring.current? = .ok key ∧
      ∀ front, front <+: requests → ∀ (number : UInt32) (kept : SignedPreKey),
        (s.run front).shelf.ring.keys[number]? = some kept →
        kept = key ∨ start.HasUsed (before ++ front) kept := by
  intro s requests
  have hbase : s.shelf.Underway none s.shelf := .refl (sound_run hstart before) hpending
  obtain ⟨made, hunderway, hmade, htaken, hlength⟩ := run_underway hbase hfree hstays
  obtain ⟨key, k, htakesUp, htakes, hid, hshelf⟩ :=
    Request.takesUp_of_rotatesTo hunderway.sound hlast
  obtain ⟨hfinal, hsame⟩ := hunderway.takesUp hfree htakes
  have hmakes := Request.makes_of_takesUp hunderway htakesUp hsame
  have hrun : (s.run requests).shelf = (k.promoted key.id).purged := by
    rw [run_append]
    exact hshelf
  have honly : ∀ {key' : SignedPreKey}, made = some key' → key' = key := by
    rintro key' rfl
    exact Option.some.inj (hsame.resolve_left nofun)
  refine ⟨key, hid, hid ▸ hfinal.id_eq key rfl, ?_, ?_, ?_, ?_, ?_⟩
  · have hcount : [request].countP Request.isRotation = 1 := by
      rw [List.countP_singleton, Request.isRotation_of_rotatesTo hlast]
      rfl
    rw [takenUp, gather_concat, htakesUp, List.countP_append, hcount, ← hlength]
    have hretries := List.eq_replicate_of_mem fun key' hkey' => honly (htaken key' hkey')
    exact (congrArg (· ++ [key]) hretries).trans List.replicate_succ'.symm
  · rw [Scene.made, gather_concat, ← hmakes, ← hmade]
    rfl
  · rw [hrun]
    exact hfinal.nextId
  · rw [hrun]
    exact Shelf.current?_purged_promoted (hfinal.kept key rfl).1
  · intro front hfront number kept hkept
    have hcases : kept = key ∨ s.shelf.ring.keys[number]? = some kept := by
      rcases List.prefix_concat_iff.mp hfront with rfl | hfront
      · rw [hrun] at hkept
        have hkept' := Shelf.getElem?_of_purged hkept
        refine (hfinal.former number kept hkept').imp_left fun hkey => ?_
        exact (Option.some.inj hkey).symm
      · refine (mem_made_of_kept hbase.sound hpending hfree hstays hfront hkept).imp_left ?_
        intro hkey
        exact honly (Option.mem_toList.mp (hmade ▸ hkey))
    refine hcases.imp_right fun hold => ?_
    exact (hasUsed_of_kept hstart hpending hold).mono (List.prefix_append _ _)

end Attempts

section Example

attribute [local instance] CipherSuite.transparent

namespace Scene

/-- After eight days a rotation is refused, and two more fail because the own account cannot be
looked up, with a cleanup and two publications in between. Then the directory answers again. -/
def setbacks : List Request :=
  [.surroundings { Directory.empty with refusesPublication := true }
      (.ofEpochSeconds (8 * 86400)) .counting,
    .rotate, .prune, .publishBundle,
    .surroundings { Directory.empty with failingAccounts := (∅ : AccountSet).insert "alice" }
      (.ofEpochSeconds (9 * 86400)) .counting,
    .rotateIfDue, .publishBundle, .rotate,
    .surroundings .empty (.ofEpochSeconds (10 * 86400)) .counting]

/-- The rotation that succeeds then is the fourth one that takes up the second key. -/
theorem exists_made_of_setbacks :
    ∃ start key, Provisioned start ∧ key.id = 2 ∧
      start.takenUp (setbacks ++ [.rotateIfDue]) = [key, key, key, key] ∧
      start.made (setbacks ++ [.rotateIfDue]) = [key] ∧
      (start.run (setbacks ++ [.rotateIfDue])).shelf.ring.current? = .ok key := by
  have hstart : (rotator? (.ofDays 30)).any fun start =>
      (start.run []).messenger.pendingRotation = none ∧
        (start.run []).staysUnfinished setbacks = true ∧
        Request.rotateIfDue.rotatesTo? ((start.run []).run setbacks) = some 2 := by
    decide +kernel
  obtain ⟨start, hsome, hp⟩ := (Option.any_eq_true _ _).mp hstart
  obtain ⟨hpending, hstays, hlast⟩ := of_decide_eq_true hp
  have hprovisioned := provisioned_of_joining hsome
  have hfree := nextId_notMem hprovisioned [] (by decide)
  obtain ⟨key, hid, -, htaken, hmade, -, hcurrent, -⟩ :=
    exists_made_once hprovisioned hpending hfree hstays hlast
  exact ⟨start, key, hprovisioned, hid, htaken, hmade, hcurrent⟩

end Scene

end Example

end MultiDevice
