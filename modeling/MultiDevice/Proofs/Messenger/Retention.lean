import MultiDevice.Proofs.Key.Retention
import MultiDevice.Proofs.Messenger.FailedRotation

/-!
# Which signed pre-keys a device keeps

Rotations may fail at any stage and cleanups may be late; still the signed pre-keys that a device
keeps right after a cleanup are those that the history of its rotations says: the one in use, the
one of a rotation that is not finished, and those put out of use whose grace period is not over.

## Main definitions

* `Scene.shelf`: what decides which signed pre-keys are kept
* `Request.rotatesTo?`: the signed pre-key that a request puts in use
* `Scene.supersessions`: the signed pre-keys that a run puts out of use, and when
* `Scene.IsSteady`, `Request.IsSteady`: runs in which time goes on and expiries can be computed

## Main results

* `Messenger.rotate_keeps`: what a rotation makes of the signed pre-keys, and what it leaves when it
  fails
* `Request.perform_keeps`, `Scene.run_keeps`: every request and every run follows the history
* `Scene.mem_ids_of_inGrace`: no key is dropped before its grace period is over
* `Scene.mem_ids_iff_of_cleanup`: the signed pre-keys kept after a cleanup
-/

namespace MultiDevice

/-- What decides which signed pre-keys a device keeps. -/
def Scene.shelf (s : Scene) : Shelf :=
  { ring := s.messenger.store.signedPreKeys
    pending := s.messenger.pendingRotation
    grace := s.messenger.settings.gracePeriod
    now := s.now }

theorem Scene.shelf_ignoresTraffic : IgnoresTraffic Scene.shelf :=
  ⟨⟨fun _ _ => rfl, fun _ _ => rfl, fun _ _ => rfl, fun _ _ => rfl⟩, fun _ _ _ => rfl⟩

/-- The end of a grace period that begins now can be computed. -/
def Shelf.CanExpire (k : Shelf) : Prop := (k.now.add? k.grace).isSome

instance (k : Shelf) : Decidable k.CanExpire := inferInstanceAs (Decidable (_ = true))

/-- The signed pre-keys are kept under their own numbers and follow a history, and the key of an
unfinished rotation is among them while there are numbers left, of which `n` were given out. -/
structure Shelf.Keeps (history : List Supersession) (n : Nat) (k : Shelf) : Prop where
  filed : k.ring.Filed
  retains : k.Retains history
  reserves : n < UInt32.size → k.Reserves n

/-- A rotation has taken up the key with a number; the key in use is still the one from before. -/
structure Shelf.Takes (history : List Supersession) (n : Nat) (id : UInt32) (k base : Shelf) :
    Prop where
  keeps : k.Keeps history n
  pending : k.pending = some id
  mem : id ∈ k.ring.keys
  current : k.ring.current = base.ring.current
  grace : k.grace = base.grace
  now : k.now = base.now

namespace Shelf

variable {history : List Supersession} {n : Nat} {k base : Shelf} {id : UInt32}

theorem Keeps.mono {n' : Nat} (h : k.Keeps history n) (hle : n ≤ n') : k.Keeps history n' :=
  ⟨h.filed, h.retains, fun hroom => (h.reserves (Nat.lt_of_le_of_lt hle hroom)).mono hle⟩

/-- Keys that stay under their numbers stay filed. -/
theorem Keeps.purged (h : k.Keeps history n) : k.purged.Keeps history n :=
  ⟨(k.ring.purge_drops k.now).filed h.filed, h.retains.purged, fun hroom =>
    (h.reserves hroom).purged⟩

/-- The keys that a rotation puts out of use go into the history. -/
theorem Takes.keeps_promoted (h : k.Takes history n id base) :
    (k.promoted id).Keeps (history ++ base.supersedes id) n := by
  have hsupersedes : k.supersedes id = base.supersedes id := by
    unfold supersedes
    rw [h.current, h.now]
  refine ⟨h.keeps.filed, ?_, fun hroom =>
    (h.keeps.reserves hroom).promoted h.keeps.retains.current_mem id⟩
  rw [← hsupersedes]
  exact h.keeps.retains.promoted h.pending h.mem

end Shelf

namespace Messenger

variable {s base : Scene} {history : List Supersession} {n : Nat} {id : UInt32}

/-! ## What a rotation does once its bundle is published -/

/-- A key that is kept is put in use. -/
theorem exists_promote (h : id ∈ s.shelf.ring.keys) :
    ∃ t, promote id s = .ok
        (if s.shelf.ring.current = id then none else some s.shelf.ring.current) t ∧
      t.shelf = { s.shelf with ring := { s.shelf.ring with
        expiries := s.shelf.ring.expiries.erase id, current := id } } := by
  have hring : s.messenger.store.signedPreKeys.promote id = .ok
      (if s.shelf.ring.current = id then none else some s.shelf.ring.current,
        { s.shelf.ring with expiries := s.shelf.ring.expiries.erase id, current := id }) := if_pos h
  have hstore : s.messenger.store.promoteSignedPreKey id = .ok
      (if s.shelf.ring.current = id then none else some s.shelf.ring.current,
        { s.messenger.store with signedPreKeys := { s.shelf.ring with
          expiries := s.shelf.ring.expiries.erase id, current := id } }) := by
    unfold Store.promoteSignedPreKey
    rw [hring]
    rfl
  exact ⟨_, Action.changeStore_of_ok (Draw.ofExcept_eq_ok_iff.mpr ⟨hstore, rfl⟩), rfl⟩

/-- A key that is kept and not in use is scheduled to be dropped. -/
theorem exists_scheduleExpiry (hmem : id ∈ s.shelf.ring.keys) (hne : id ≠ s.shelf.ring.current)
    (hexpire : s.shelf.CanExpire) :
    ∃ t, scheduleExpiry id s = .ok () t ∧
      t.shelf = { s.shelf with ring := { s.shelf.ring with
        expiries := s.shelf.ring.expiries.insert id
          ⟨s.shelf.now.nanoseconds + s.shelf.grace.nanoseconds⟩ } } := by
  obtain ⟨expiry, hexpiry⟩ := Option.isSome_iff_exists.mp hexpire
  have hring : s.messenger.store.signedPreKeys.expire id expiry = .ok
      { s.shelf.ring with expiries := s.shelf.ring.expiries.insert id expiry } :=
    (if_neg hne).trans (if_pos hmem)
  have hstore : s.messenger.store.expireSignedPreKey id expiry =
      .ok { s.messenger.store with signedPreKeys := { s.shelf.ring with
        expiries := s.shelf.ring.expiries.insert id expiry } } := by
    unfold Store.expireSignedPreKey
    rw [hring]
    rfl
  have hexpires : (return ((), ← Draw.ofExcept (s.messenger.store.expireSignedPreKey id expiry)) :
      Draw (Unit × Store)) s.entropy = .ok ((), _) s.entropy :=
    bind_of_ok (Draw.ofExcept_eq_ok_iff.mpr ⟨hstore, rfl⟩)
  have hgrace : s.now.add? s.messenger.settings.gracePeriod = some expiry := hexpiry
  have hschedule : scheduleExpiry id s = Action.changeStore (fun store =>
      return ((), ← Draw.ofExcept (store.expireSignedPreKey id expiry))) s := by
    rw [scheduleExpiry, bind_get, hgrace]
  refine ⟨_, hschedule.trans (Action.changeStore_of_ok hexpires), ?_⟩
  rw [← Time.eq_of_add? hexpiry]
  rfl

/-- Pruning drops what is due, and does not fail. -/
theorem exists_prune (s : Scene) :
    ∃ dropped t, prune s = .ok dropped t ∧ t.shelf = s.shelf.purged := by
  have hprune : prune s = Action.changeStore
      (fun store => return store.purgeSignedPreKeys s.now) s := rfl
  exact ⟨_, _, hprune.trans (Action.changeStore_of_ok rfl), rfl⟩

/-- Once its bundle is published a rotation succeeds: it puts its key in use, schedules the one that
was in use before, and drops what is due. -/
theorem exists_finish (hid : id ∈ s.shelf.ring.keys)
    (hcurrent : s.shelf.ring.current ∈ s.shelf.ring.keys)
    (hexpire : s.shelf.ring.current ≠ id → s.shelf.CanExpire) :
    ∃ t, finish id s = .ok id t ∧ t.shelf = (s.shelf.promoted id).purged := by
  obtain ⟨t, ht, hshelf⟩ := exists_promote hid
  have hnote : (modify fun s => s.setPendingRotation none : Action PUnit) t =
      .ok ⟨⟩ (t.setPendingRotation none) := rfl
  have hshelf' : (t.setPendingRotation none).shelf = { t.shelf with pending := none } := rfl
  rw [finish, bind_of_ok ht, bind_of_ok hnote]
  by_cases hsame : s.shelf.ring.current = id
  · rw [if_pos hsame]
    obtain ⟨dropped, v, hv, hpurged⟩ := exists_prune (t.setPendingRotation none)
    refine ⟨v, bind_of_ok hv, ?_⟩
    rw [hpurged, hshelf', hshelf, Shelf.promoted, if_pos hsame]
  · rw [if_neg hsame]
    rw [hshelf] at hshelf'
    obtain ⟨u, hu, hscheduled⟩ : ∃ u,
        scheduleExpiry s.shelf.ring.current (t.setPendingRotation none) = .ok () u ∧ _ :=
      exists_scheduleExpiry (hshelf' ▸ hcurrent) (hshelf' ▸ hsame) (hshelf' ▸ hexpire hsame)
    obtain ⟨dropped, v, hv, hpurged⟩ := exists_prune u
    refine ⟨v, (bind_of_ok hu).trans (bind_of_ok hv), ?_⟩
    rw [hpurged, hscheduled, hshelf', Shelf.promoted, if_neg hsame]

/-! ## Rotations and cleanups follow the history -/

/-- A rotation takes up a key that is kept and that no later step drops. -/
theorem nextSignedPreKey_keeps (h : base.shelf.Keeps history n) :
    Ensures (fun s => s = base) nextSignedPreKey
      (fun key s => (s.setPendingRotation (some key.id)).shelf.Takes history (n + 1) key.id
        base.shelf)
      (fun s => s.shelf.Keeps history (n + 1)) := by
  refine Ensures.get_bind ?_
  rintro s rfl
  split
  · next key hkey =>
    refine Ensures.pure ?_
    rintro t rfl
    obtain ⟨id, hpending, hget⟩ := Option.bind_eq_some_iff.mp hkey
    have hid : key.id = id := h.filed id key hget
    have hshelf : (t.setPendingRotation (some key.id)).shelf = t.shelf := by
      rw [hid, ← hpending]
      rfl
    rw [hshelf]
    exact ⟨h.mono n.le_succ, hid ▸ hpending, hid ▸ Entries.mem_of_getElem? hget, rfl, rfl, rfl⟩
  · next hnone =>
    refine Ensures.changeStore ?_ ?_
    · rintro t key st e rfl hc
      obtain ⟨⟨key', r⟩, e₁, hcreate, hst⟩ := bind_eq_ok_iff.mp hc
      cases hst
      obtain ⟨hfiled, hkept, hcurrent⟩ := SignedPreKeyRing.create_filed h.filed hcreate
      obtain ⟨hkey, -, -⟩ := SignedPreKeyRing.eq_of_create hcreate
      have hid : key.id = t.shelf.ring.nextId := hkey ▸ h.filed.id_next _ _
      refine ⟨⟨hfiled, h.retains.create hnone hid hcreate, fun hroom => ?_⟩, rfl,
        Entries.mem_of_getElem? hkept, hcurrent, rfl, rfl⟩
      exact (h.reserves (Nat.lt_of_succ_lt hroom)).create hroom hcreate
    · rintro t err e rfl -
      exact h.mono n.le_succ

/-- A rotation follows the history whether it succeeds or fails. -/
theorem keeps_of_ensures {α : Type} {x : Action α} (rotated : α → Option UInt32)
    (hx : Ensures (fun t => t = s) x
      (fun answer t =>
        t.shelf.Keeps (history ++ (rotated answer).elim [] s.shelf.supersedes) (n + 1) ∧
          ((rotated answer).isSome → t.shelf.IsTidy))
      (fun t => t.shelf.Keeps history (n + 1))) :
    (endState x s).shelf.Keeps
        (history ++ ((answer? x s).bind rotated).elim [] s.shelf.supersedes) (n + 1) ∧
      (((answer? x s).bind rotated).isSome → (endState x s).shelf.IsTidy) := by
  have hx := hx s rfl
  cases h : x s with
  | ok answer t =>
    rw [h] at hx
    rw [endState_of_ok h, answer?_of_ok h]
    exact hx
  | error err t =>
    rw [h] at hx
    rw [endState_of_error h, answer?_of_error h]
    refine ⟨?_, nofun⟩
    rw [Option.bind_none, Option.elim_none, List.append_nil]
    exact hx

variable [CipherSuite]

/-- A rotation puts a key in use and drops what is due, or it fails and puts none out of use. -/
theorem rotate_keeps (h : base.shelf.Keeps history n) (hexpire : base.shelf.CanExpire) :
    Ensures (fun s => s = base) rotate
      (fun id s => s.shelf.Keeps (history ++ base.shelf.supersedes id) (n + 1) ∧ s.shelf.IsTidy)
      (fun s => s.shelf.Keeps history (n + 1)) := by
  rw [rotate_eq]
  refine (nextSignedPreKey_keeps h).bind fun next => ?_
  -- from here on until the bundle is published nothing changes but what publishing changes
  let p : Scene → Prop := fun s => s.shelf.Takes history (n + 1) next.id base.shelf
  have hnote : Ensures (fun s => p (s.setPendingRotation (some next.id)))
      (modify fun s => s.setPendingRotation (some next.id) : Action PUnit) (fun _ => p)
      (fun s => s.shelf.Keeps history (n + 1)) := Ensures.modify fun _ hs => hs
  have hpublish : Ensures p (publishWith next) (fun _ => p)
      (fun s => s.shelf.Keeps history (n + 1)) :=
    ((publishWith_leaves ⟨fun _ _ => rfl, fun _ _ => rfl, fun _ _ => rfl, fun _ _ => rfl⟩
      next).ensures).mono (fun _ _ hs => hs) fun _ hs => hs.keeps
  refine hnote.bind fun _ => hpublish.bind fun _ => ?_
  refine Ensures.of_ok fun s hs => ?_
  have hexpire' : s.shelf.CanExpire := by
    unfold Shelf.CanExpire
    rw [hs.now, hs.grace]
    exact hexpire
  obtain ⟨t, hfinish, hshelf⟩ := exists_finish hs.mem hs.keeps.retains.current_mem
    fun _ => hexpire'
  refine ⟨next.id, t, hfinish, ?_⟩
  rw [hshelf]
  exact ⟨hs.keeps_promoted.purged, hs.keeps_promoted.retains.isTidy_purged⟩

/-- The same of a rotation that waits until the key in use is old enough. -/
theorem rotateIfDue_keeps (h : base.shelf.Keeps history n) (hexpire : base.shelf.CanExpire) :
    Ensures (fun s => s = base) rotateIfDue
      (fun answer s => s.shelf.Keeps (history ++ answer.elim [] base.shelf.supersedes) (n + 1) ∧
        (answer.isSome → s.shelf.IsTidy))
      (fun s => s.shelf.Keeps history (n + 1)) := by
  refine Ensures.get_bind ?_
  rintro s rfl
  have hcurrent : Ensures (fun t => t = s)
      (Action.ofExcept s.messenger.store.signedPreKeys.current?) (fun _ t => t = s)
      (fun t => t.shelf.Keeps history (n + 1)) :=
    Ensures.ofExcept (fun _ _ _ ht => ht) fun _ ht => ht ▸ h.mono n.le_succ
  refine hcurrent.bind fun current => ?_
  dsimp only
  split
  · refine Ensures.pure ?_
    rintro t rfl
    refine ⟨?_, nofun⟩
    rw [Option.elim_none, List.append_nil]
    exact h.mono n.le_succ
  · exact (rotate_keeps h hexpire).bind fun id => Ensures.pure fun _ ht => ⟨ht.1, fun _ => ht.2⟩

end Messenger

/-- A device that was just set up has put no key out of use. -/
theorem Provisioned.keeps {s : Scene} (h : Provisioned s) : s.shelf.Keeps [] 2 := by
  obtain ⟨now, e, e', hring⟩ := h.exists_startingAt
  have hshelf : s.shelf =
      ⟨s.messenger.store.signedPreKeys, none, s.messenger.settings.gracePeriod, s.now⟩ := by
    unfold Scene.shelf
    rw [h.exists_provision.1]
  refine ⟨h.filed, ?_, fun _ => ?_⟩
  · rw [hshelf]
    exact Shelf.retains_of_startingAt hring _ _
  · rw [hshelf]
    exact Shelf.reserves_of_startingAt hring _ _

section Run

variable [CipherSuite]

/-- The signed pre-key that a request puts in use, if it is a rotation that succeeds. -/
def Request.rotatesTo? (request : Request) (s : Scene) : Option UInt32 :=
  match request with
  | .rotate => answer? Messenger.rotate s
  | .rotateIfDue => (answer? Messenger.rotateIfDue s).join
  | _ => none

/-- The signed pre-keys that a request puts out of use. -/
def Request.supersedes (request : Request) (s : Scene) : List Supersession :=
  (request.rotatesTo? s).elim [] s.shelf.supersedes

/-- The signed pre-keys that a run puts out of use. -/
def Scene.supersessions : List Request → Scene → List Supersession
  | [], _ => []
  | request :: rest, s => request.supersedes s ++ supersessions rest (request.perform s)

/-- A request does not start afresh, time does not go back, and a rotation can compute the end of a
grace period that begins with it. -/
def Request.IsSteady (request : Request) (s : Scene) : Prop :=
  match request with
  | .regenerate => False
  | .surroundings _ now _ => s.now ≤ now
  | .rotate | .rotateIfDue => s.shelf.CanExpire
  | _ => True

instance : (request : Request) → (s : Scene) → Decidable (request.IsSteady s)
  | .regenerate, _ => isFalse id
  | .surroundings _ now _, s => inferInstanceAs (Decidable (s.now ≤ now))
  | .rotate, s | .rotateIfDue, s => inferInstanceAs (Decidable s.shelf.CanExpire)
  | .encryptFor .., _ | .decrypt .., _ | .decideTrust .., _ | .resetSession .., _
  | .publishBundle, _ | .publishIfNeeded, _ | .purgeDevices, _ | .prune, _ => isTrue trivial

/-- Every request of a run is steady. -/
def Scene.IsSteady : List Request → Scene → Prop
  | [], _ => True
  | request :: rest, s => request.IsSteady s ∧ IsSteady rest (request.perform s)

instance Scene.decidableIsSteady : (requests : List Request) → (s : Scene) →
    Decidable (s.IsSteady requests)
  | [], _ => isTrue trivial
  | request :: rest, s =>
    have := decidableIsSteady rest (request.perform s)
    inferInstanceAs (Decidable (request.IsSteady s ∧ Scene.IsSteady rest (request.perform s)))

/-- A rotation is asked for. -/
def Request.isRotation : Request → Bool
  | .rotate | .rotateIfDue => true
  | _ => false

/-- A request is a cleanup, or a rotation that succeeds. -/
def Request.CleansUp (request : Request) (s : Scene) : Prop :=
  match request with
  | .prune => True
  | .rotate | .rotateIfDue => (request.rotatesTo? s).isSome
  | _ => False

variable {history : List Supersession} {n : Nat} {s : Scene}

/-- **Every request follows the history.** After a cleanup no key is to be dropped. -/
theorem Request.perform_keeps (h : s.shelf.Keeps history n) {request : Request}
    (hsteady : request.IsSteady s) :
    (request.perform s).shelf.Keeps (history ++ request.supersedes s)
        (n + [request].countP isRotation) ∧
      (request.CleansUp s → (request.perform s).shelf.IsTidy) := by
  have hpublishing := Scene.shelf_ignoresTraffic.toIgnoresPublishing
  have hleaves : ∀ {request : Request} {t : Scene}, request.rotatesTo? s = none →
      ¬ request.CleansUp s → t.shelf = s.shelf →
      t.shelf.Keeps (history ++ request.supersedes s) (n + [request].countP isRotation) ∧
        (request.CleansUp s → t.shelf.IsTidy) := by
    intro request t hnone hcleans heq
    unfold supersedes
    rw [hnone, Option.elim_none, List.append_nil, heq]
    exact ⟨h.mono (Nat.le_add_right _ _), fun h => absurd h hcleans⟩
  cases request with
  | encryptFor recipients plaintext allowed =>
    exact hleaves rfl id
      (Messenger.encryptFor_leaves Scene.shelf_ignoresTraffic recipients plaintext allowed s)
  | decrypt sender envelope =>
    refine hleaves rfl id ?_
    rw [perform, Messenger.decrypt_snd]
    exact Messenger.read_leaves Scene.shelf_ignoresTraffic sender envelope s
  | decideTrust device state => exact hleaves rfl id rfl
  | resetSession device => exact hleaves rfl id rfl
  | publishBundle => exact hleaves rfl id (Messenger.publishBundle_leaves hpublishing s)
  | publishIfNeeded => exact hleaves rfl id (Messenger.publishIfNeeded_leaves hpublishing s)
  | purgeDevices => exact hleaves rfl id (Messenger.purgeDevices_leaves hpublishing.directory s)
  | rotate =>
    have hrotate := Messenger.keeps_of_ensures some
      ((Messenger.rotate_keeps h hsteady).mono (fun _ _ ht => ⟨ht.1, fun _ => ht.2⟩) fun _ ht => ht)
    rw [Option.bind_fun_some] at hrotate
    exact hrotate
  | rotateIfDue => exact Messenger.keeps_of_ensures id (Messenger.rotateIfDue_keeps h hsteady)
  | prune =>
    obtain ⟨dropped, t, hprune, hshelf⟩ := Messenger.exists_prune s
    rw [perform, endState_of_ok hprune, hshelf]
    refine ⟨?_, fun _ => h.retains.isTidy_purged⟩
    exact (List.append_nil history).symm ▸ h.purged
  | regenerate => exact hsteady.elim
  | surroundings directory now entropy =>
    have hlater : Shelf.Keeps history n { s.shelf with now } :=
      ⟨h.filed, h.retains.later hsteady, fun hroom => ⟨(h.reserves hroom).numbered,
        (h.reserves hroom).mem, (h.reserves hroom).notMem⟩⟩
    exact ⟨(List.append_nil history).symm ▸ hlater, False.elim⟩

/-- **Every run follows the history.** -/
theorem Scene.run_keeps (h : s.shelf.Keeps history n) {requests : List Request}
    (hsteady : s.IsSteady requests) :
    (s.run requests).shelf.Keeps (history ++ s.supersessions requests)
      (n + requests.countP Request.isRotation) := by
  -- Induction on the requests; each one adds to the history that the others go on with.
  induction requests generalizing s history n with
  | nil => exact (List.append_nil history).symm ▸ h
  | cons request rest ih =>
    have hrest := ih (Request.perform_keeps h hsteady.1).1 hsteady.2
    rw [List.append_assoc, Nat.add_assoc, ← List.countP_append] at hrest
    exact hrest

/-- At no time is a key missing whose grace period is not over. -/
theorem Scene.mem_ids_of_inGrace {start : Scene} (hstart : Provisioned start)
    {requests : List Request} (hsteady : start.IsSteady requests) {x : Supersession}
    (hx : x ∈ start.supersessions requests)
    (hgrace : x.InGrace (start.run requests).messenger.settings.gracePeriod
      (start.run requests).now) :
    x.id ∈ (start.run requests).messenger.store.signedPreKeys.ids := by
  have hkeeps := run_keeps hstart.keeps hsteady
  rw [SignedPreKeyRing.ids, Std.ExtTreeMap.mem_keys]
  exact (hkeeps.retains.kept x hx hgrace).1

/-- **The signed pre-keys kept after a cleanup** are the one in use, the one of a rotation that is
not finished, and those that a rotation put out of use and whose grace period is not over. While
there are numbers left, a key that is noted for an unfinished rotation is kept. -/
theorem Scene.mem_ids_iff_of_cleanup {start : Scene} (hstart : Provisioned start)
    {requests : List Request} (hsteady : start.IsSteady requests) {request : Request}
    (hlast : request.IsSteady (start.run requests))
    (hcleans : request.CleansUp (start.run requests)) :
    let t := request.perform (start.run requests)
    let history := start.supersessions requests ++ request.supersedes (start.run requests)
    (∀ id, id ∈ t.messenger.store.signedPreKeys.ids ↔
      id = t.messenger.store.signedPreKeys.current ∨ t.shelf.unfinished? = some id ∨
        ∃ x ∈ history, x.id = id ∧ x.InGrace t.messenger.settings.gracePeriod t.now) ∧
      (2 + (requests ++ [request]).countP Request.isRotation < UInt32.size →
        t.shelf.unfinished? = t.messenger.pendingRotation) := by
  obtain ⟨hkeeps, htidy⟩ := Request.perform_keeps (run_keeps hstart.keeps hsteady) hlast
  rw [List.nil_append, Nat.add_assoc, ← List.countP_append] at hkeeps
  refine ⟨fun id => ?_, fun hroom => (hkeeps.reserves hroom).unfinished?_eq⟩
  rw [SignedPreKeyRing.ids, Std.ExtTreeMap.mem_keys]
  exact hkeeps.retains.mem_keys_iff (htidy hcleans)

end Run

section Example

attribute [local instance] CipherSuite.transparent

namespace Scene

/-- Two rotations twenty days apart, and twenty days later one that is refused. -/
def interrupted : List Request :=
  [.rotate, .surroundings .empty (.ofEpochSeconds (20 * 86400)) .counting, .rotate,
    .surroundings { Directory.empty with refusesPublication := true }
      (.ofEpochSeconds (40 * 86400)) .counting, .rotate]

/-- With a grace period of thirty days a cleanup then drops the first key. It keeps the second one,
the one in use and the one that the refused rotation made. -/
theorem ids_of_interrupted :
    ∃ start, Provisioned start ∧ start.IsSteady interrupted ∧
      let t := Request.prune.perform (start.run interrupted)
      (start.run interrupted).messenger.store.signedPreKeys.ids = [1, 2, 3, 4] ∧
      t.messenger.store.signedPreKeys.ids = [2, 3, 4] ∧
      (∀ id, id ∈ t.messenger.store.signedPreKeys.ids ↔
        id = t.messenger.store.signedPreKeys.current ∨ t.shelf.unfinished? = some id ∨
          ∃ x ∈ start.supersessions interrupted, x.id = id ∧
            x.InGrace t.messenger.settings.gracePeriod t.now) ∧
      t.shelf.unfinished? = t.messenger.pendingRotation ∧
      t.messenger.pendingRotation = some 4 := by
  have hstart : (rotator? (.ofDays 30)).any fun start =>
      let t := Request.prune.perform (start.run interrupted)
      start.IsSteady interrupted ∧
        (start.run interrupted).messenger.store.signedPreKeys.ids = [1, 2, 3, 4] ∧
        t.messenger.store.signedPreKeys.ids = [2, 3, 4] ∧
        t.messenger.pendingRotation = some 4 := by
    decide +kernel
  obtain ⟨start, hsome, hp⟩ := (Option.any_eq_true _ _).mp hstart
  obtain ⟨hsteady, hbefore, hafter, hpending⟩ := of_decide_eq_true hp
  have hprovisioned := provisioned_of_joining hsome
  have hlast : Request.prune.IsSteady (start.run interrupted) := trivial
  have hcleans : Request.prune.CleansUp (start.run interrupted) := trivial
  obtain ⟨hmem, hunfinished⟩ := mem_ids_iff_of_cleanup hprovisioned hsteady hlast hcleans
  have hnone : Request.prune.supersedes (start.run interrupted) = [] := rfl
  rw [hnone, List.append_nil] at hmem
  exact ⟨start, hprovisioned, hsteady, hbefore, hafter, hmem, hunfinished (by decide), hpending⟩

end Scene

end Example

end MultiDevice
