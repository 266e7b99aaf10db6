import MultiDevice.Proofs.Entries
import MultiDevice.Proofs.Messenger.Traffic

/-!
# One-time pre-keys that are handed out again

The directory hands out a one-time pre-key of a bundle once. The device keeps the key until a first
message arrives for it, and every bundle that it publishes lists its whole pool, so a key that was
handed out is listed again. Only in this way is a key handed out twice.

## Main definitions

* `Dealing`: what a device is asked for, and fetches of its bundle by others
* `Dealing.handsOut`: the one-time pre-key that a fetch hands out
* `Scene.Lists`: a one-time pre-key is on the bundle published

## Main results

* `Dealing.lists_of_perform`: how a one-time pre-key gets on the bundle
* `exists_publication_between`: between two fetches that hand out a key, its device published a pool
  that still held it
* `handed_out_again`: a key that is handed out twice
-/

namespace MultiDevice

/-- A one-time pre-key is on the bundle that a device has published. -/
def Scene.Lists (s : Scene) (id : UInt32) : Prop :=
  ∃ b, s.directory.bundles[s.messenger.address]? = some b ∧ id ∈ b.oneTimePreKeys

/-- What is on a bundle after some of it was handed out was on it before. -/
theorem Scene.Lists.of_serves {s t : Scene} {id : UInt32} (h : t.Lists id)
    (haddress : t.messenger.address = s.messenger.address)
    (hserves : s.directory.Serves s.messenger.address t.directory) : s.Lists id := by
  obtain ⟨b', hb', hid⟩ := h
  rw [haddress] at hb'
  obtain ⟨b, hb, hout⟩ := hserves.handsOut b' hb'
  obtain ⟨key, hkey⟩ := Entries.exists_of_mem hid
  exact ⟨b, hb, Entries.mem_of_getElem? (hout.oneTime id key hkey)⟩

section Dealings

variable [CipherSuite]

/-- What is asked of a device, and fetches of its bundle by others. -/
inductive Dealing where
  /-- The device is asked for something. -/
  | request (request : Request)
  /-- Someone fetches the bundle of the device. -/
  | fetch

namespace Dealing

/-- The scene afterwards, whether it succeeds or fails. -/
def perform : Dealing → Scene → Scene
  | request r, s => r.perform s
  | fetch, s =>
    match s.directory.fetchBundle s.messenger.address with
    | .ok (_, directory) => s.setDirectory directory
    | .error _ => s

/-- The one-time pre-key that is handed out. -/
def handsOut : Dealing → Scene → Option UInt32
  | request _, _ => none
  | fetch, s =>
    match s.directory.fetchBundle s.messenger.address with
    | .ok (b, _) => b.oneTimePreKey.map (·.id)
    | .error _ => none

/-- What is fetched, and the scene that the fetch leaves behind. -/
theorem of_fetchBundle {s : Scene} {b : PreKeyBundle} {directory : Directory}
    (h : s.directory.fetchBundle s.messenger.address = .ok (b, directory)) :
    fetch.handsOut s = b.oneTimePreKey.map (·.id) ∧ fetch.perform s = s.setDirectory directory := by
  simp only [handsOut, perform, h, and_self]

/-- A fetch that fails hands out nothing and changes nothing. -/
theorem of_fetchBundle_error {s : Scene} {err : Error}
    (h : s.directory.fetchBundle s.messenger.address = .error err) :
    fetch.handsOut s = none ∧ fetch.perform s = s := by
  simp only [handsOut, perform, h, and_self]

end Dealing

namespace Scene

/-- The scene after a sequence of dealings. -/
def deal (dealings : List Dealing) (s : Scene) : Scene :=
  dealings.foldl (fun s dealing => dealing.perform s) s

/-- The one-time pre-keys handed out in a sequence of dealings, in order. -/
def handedOut : List Dealing → Scene → List UInt32
  | [], _ => []
  | dealing :: rest, s => (dealing.handsOut s).toList ++ handedOut rest (dealing.perform s)

/-- All along, nobody else publishes for the device. -/
def Calm : Scene → List Dealing → Prop
  | _, [] => True
  | s, .request r :: rest => s.Undisturbed r ∧ (r.perform s).Calm rest
  | s, .fetch :: rest => (Dealing.fetch.perform s).Calm rest

@[simp] theorem deal_append (front back : List Dealing) (s : Scene) :
    s.deal (front ++ back) = (s.deal front).deal back := List.foldl_append

theorem Filed.deal {s : Scene} (h : s.Filed) (dealings : List Dealing) :
    (s.deal dealings).Filed := by
  induction dealings generalizing s with
  | nil => exact h
  | cons dealing rest ih =>
    refine ih (s := dealing.perform s) ?_
    cases dealing with
    | request r => exact r.perform_filed h
    | fetch =>
      cases hf : s.directory.fetchBundle s.messenger.address with
      | error err =>
        rw [(Dealing.of_fetchBundle_error hf).2]
        exact h
      | ok fetched =>
        rw [(Dealing.of_fetchBundle hf).2]
        exact h

end Scene

namespace Dealing

variable {s t : Scene} {id : UInt32}

/-- A key that is handed out was on the bundle, and is not on it afterwards. -/
theorem of_handsOut (h : fetch.handsOut s = some id) :
    s.Lists id ∧ ¬ (fetch.perform s).Lists id := by
  cases hf : s.directory.fetchBundle s.messenger.address with
  | error err =>
    rw [(of_fetchBundle_error hf).1] at h
    cases h
  | ok fetched =>
    obtain ⟨b, directory⟩ := fetched
    rw [(of_fetchBundle hf).1] at h
    rw [(of_fetchBundle hf).2]
    obtain ⟨published, hp, ⟨rfl, -⟩ | ⟨picked, hmem, rfl, rfl⟩⟩ := Directory.cases_of_fetchBundle hf
    · cases h
    · obtain ⟨key, hkey, hid⟩ := Option.map_eq_some_iff.mp h
      obtain ⟨bytes, hbytes, rfl⟩ := Option.map_eq_some_iff.mp hkey
      cases hid
      refine ⟨⟨published, hp, hmem⟩, ?_⟩
      rintro ⟨b, hb, hid⟩
      cases Std.ExtTreeMap.getElem?_insert_self.symm.trans hb
      exact (Std.ExtTreeMap.mem_erase.mp hid).1 Std.ReflCmp.compare_self

end Dealing

/-- Upkeep that publishes nothing adds nothing to the bundle; what is on a bundle that it publishes
is in the pool. -/
theorem Chores.lists {base s : Scene} (h : Chores base s) :
    s.messenger.address = base.messenger.address ∧
      ((s.directory.publications = base.directory.publications ∧
          s.directory.bundles = base.directory.bundles) ∨
        base.directory.publications < s.directory.publications ∧
          ∀ id, s.Lists id → id ∈ s.messenger.store.oneTimePreKeys.keys) := by
  refine h.induction (p := fun s => s.messenger.address = base.messenger.address ∧
    ((s.directory.publications = base.directory.publications ∧
        s.directory.bundles = base.directory.bundles) ∨
      base.directory.publications < s.directory.publications ∧
        ∀ id, s.Lists id → id ∈ s.messenger.store.oneTimePreKeys.keys)) ?_ ⟨rfl, .inl ⟨rfl, rfl⟩⟩
  rintro s t hchore ⟨haddress, hs⟩
  cases hchore with
  | publish signed d hchosen hd =>
    refine ⟨haddress, .inr ?_⟩
    unfold Directory.publishBundle at hd
    split at hd
    · cases hd
    · cases hd
      refine ⟨?_, ?_⟩
      · have hle : base.directory.publications ≤ s.directory.publications := by
          rcases hs with ⟨heq, -⟩ | ⟨hlt, -⟩
          · exact Nat.le_of_eq heq.symm
          · exact Nat.le_of_lt hlt
        exact Nat.lt_succ_of_le hle
      · rintro id ⟨b, hb, hid⟩
        cases Std.ExtTreeMap.getElem?_insert_self.symm.trans hb
        exact Std.ExtTreeMap.mem_map.mp hid
  | fill target =>
    refine ⟨haddress, hs.imp_right fun ⟨hlt, hlists⟩ => ⟨hlt, fun id hid => ?_⟩⟩
    have hmem := hlists id hid
    change id ∈ (endState (OneTimePreKeyPool.replenish target)
      (s.messenger.store.oneTimePreKeys, s.entropy)).1.keys
    rw [OneTimePreKeyPool.endState_replenish]
    exact OneTimePreKeyPool.mem_endState_generate _ hmem
  | list devices d hd =>
    obtain ⟨hbundles, hpublications⟩ := Messenger.bundles_of_publishDeviceList hd
    refine ⟨haddress, ?_⟩
    rcases hs with ⟨heq, hsame⟩ | ⟨hlt, hlists⟩
    · exact .inl ⟨hpublications.trans heq, hbundles.trans hsame⟩
    · refine .inr ⟨Nat.lt_of_lt_of_eq hlt hpublications.symm, ?_⟩
      rintro id ⟨b, hb, hid⟩
      exact hlists id ⟨b, hbundles ▸ hb, hid⟩
  | waste e he => exact ⟨haddress, hs⟩
  | refuse => exact ⟨haddress, hs⟩
  | create key r e hnone hr => exact ⟨haddress, hs⟩
  | promote b previous r hb hr => exact ⟨haddress, hs⟩
  | expire id expiry r hpending hr => exact ⟨haddress, hs⟩
  | purge => exact ⟨haddress, hs⟩

/-- A one-time pre-key is on the bundle because it was before, or because the device has just
published a pool that holds it. -/
theorem Dealing.lists_of_perform {dealing : Dealing} {s : Scene} {rest : List Dealing}
    (hfiled : s.Filed) (hcalm : s.Calm (dealing :: rest)) {id : UInt32}
    (h : (dealing.perform s).Lists id) :
    s.Lists id ∨ ∃ request, dealing = .request request ∧
      s.directory.publications < (request.perform s).directory.publications ∧
      id ∈ (request.perform s).messenger.store.oneTimePreKeys.keys := by
  cases dealing with
  | fetch =>
    refine .inl ?_
    cases hf : s.directory.fetchBundle s.messenger.address with
    | error err =>
      rw [(of_fetchBundle_error hf).2] at h
      exact h
    | ok fetched =>
      rw [(of_fetchBundle hf).2] at h
      exact h.of_serves rfl (Directory.serves_of_fetchBundle hf)
  | request r =>
    by_cases hup : r.IsUpkeep
    · obtain ⟨t, hbase, hchores⟩ := r.perform_chores hup hfiled
      have hsame : t.messenger.address = s.messenger.address ∧ t.directory = s.directory := by
        rcases hbase with rfl | ⟨st, e, -, rfl⟩
        · exact ⟨rfl, rfl⟩
        · exact ⟨rfl, rfl⟩
      obtain ⟨haddress, ⟨-, hbundles⟩ | ⟨hlt, hlists⟩⟩ := hchores.lists
      · obtain ⟨b, hb, hid⟩ := h
        refine .inl ⟨b, ?_, hid⟩
        rw [← hsame.1, ← hsame.2, ← haddress, ← hbundles]
        exact hb
      · exact .inr ⟨r, rfl, hsame.2 ▸ hlt, hlists id h⟩
    · -- nobody else publishes for the device, so traffic only takes keys off the bundle
      have htraffic := r.perform_traffic hup hcalm.1
      exact .inl (h.of_serves htraffic.address htraffic.directory)

/-- A one-time pre-key that gets on the bundle gets there when the device publishes a pool that
holds it. -/
theorem Scene.exists_publication {s : Scene} (hfiled : s.Filed) {dealings : List Dealing}
    (hcalm : s.Calm dealings) {id : UInt32} (hbefore : ¬ s.Lists id)
    (hafter : (s.deal dealings).Lists id) :
    ∃ front request back, dealings = front ++ .request request :: back ∧
      (s.deal front).directory.publications <
        (request.perform (s.deal front)).directory.publications ∧
      id ∈ (request.perform (s.deal front)).messenger.store.oneTimePreKeys.keys := by
  -- Induction on the dealings: the first one after which the key is on the bundle published it.
  induction dealings generalizing s with
  | nil => exact absurd hafter hbefore
  | cons dealing rest ih =>
    by_cases hnow : (dealing.perform s).Lists id
    · rcases Dealing.lists_of_perform hfiled hcalm hnow with hs | ⟨request, rfl, hlt, hmem⟩
      · exact absurd hs hbefore
      · exact ⟨[], request, rest, rfl, hlt, hmem⟩
    · have hcalm' : (dealing.perform s).Calm rest := by
        cases dealing with
        | request r => exact hcalm.2
        | fetch => exact hcalm
      obtain ⟨front, request, back, rfl, hlt, hmem⟩ :=
        ih (hfiled.deal [dealing]) hcalm' hnow hafter
      exact ⟨dealing :: front, request, back, rfl, hlt, hmem⟩

/-- Between two fetches that hand out the same one-time pre-key, its device published a pool that
still held it. -/
theorem Scene.exists_publication_between {start : Scene} (hstart : Provisioned start)
    (before between : List Dealing)
    (hcalm : (start.deal (before ++ [.fetch])).Calm between) {id : UInt32}
    (hfirst : Dealing.fetch.handsOut (start.deal before) = some id)
    (hsecond : Dealing.fetch.handsOut (start.deal (before ++ [.fetch] ++ between)) = some id) :
    ∃ front request back, between = front ++ .request request :: back ∧
      let s := start.deal (before ++ [.fetch] ++ front)
      s.directory.publications < (request.perform s).directory.publications ∧
        id ∈ (request.perform s).messenger.store.oneTimePreKeys.keys := by
  have hfiled : (start.deal (before ++ [.fetch])).Filed := hstart.filed.deal _
  have hgone : ¬ (start.deal (before ++ [.fetch])).Lists id := by
    rw [deal_append]
    exact (Dealing.of_handsOut hfirst).2
  have hlisted : ((start.deal (before ++ [.fetch])).deal between).Lists id := by
    rw [← deal_append]
    exact (Dealing.of_handsOut hsecond).1
  obtain ⟨front, request, back, hsplit, hlt, hmem⟩ :=
    exists_publication hfiled hcalm hgone hlisted
  refine ⟨front, request, back, hsplit, ?_⟩
  rw [deal_append]
  exact ⟨hlt, hmem⟩

end Dealings

section Example

attribute [local instance] CipherSuite.transparent

namespace Scene

/-- A device that was just set up with two one-time pre-keys. -/
def twoKeys? : Option Scene :=
  joining? ⟨"alice", 1⟩ { Settings.standard with minOneTimePreKeys := 0, maxOneTimePreKeys := 2 }
    .empty .counting

/-- A key that was handed out is handed out again after the device published once more. -/
theorem handed_out_again :
    ∃ start, Provisioned start ∧ start.messenger.store.oneTimePreKeys.keys.keys = [1, 2] ∧
      handedOut [.request .publishBundle, .fetch, .request .publishBundle, .fetch] start =
        [1, 1] := by
  have hstart : twoKeys?.any fun start =>
      start.messenger.store.oneTimePreKeys.keys.keys = [1, 2] ∧
        handedOut [.request .publishBundle, .fetch, .request .publishBundle, .fetch] start =
          [1, 1] := by
    decide +kernel
  obtain ⟨start, hsome, hp⟩ := (Option.any_eq_true _ _).mp hstart
  obtain ⟨hkeys, hout⟩ := of_decide_eq_true hp
  exact ⟨start, provisioned_of_joining hsome, hkeys, hout⟩

/-- The publication between the two fetches listed the key again. -/
theorem publication_between_fetches :
    ∃ start, Provisioned start ∧
      ∃ front request back, [.request .publishBundle] = front ++ .request request :: back ∧
        let s := start.deal ([.request .publishBundle, .fetch] ++ front)
        s.directory.publications < (request.perform s).directory.publications ∧
          1 ∈ (request.perform s).messenger.store.oneTimePreKeys.keys := by
  have hstart : twoKeys?.any fun start =>
      Dealing.fetch.handsOut (start.deal [.request .publishBundle]) = some 1 ∧
        Dealing.fetch.handsOut (start.deal
          [.request .publishBundle, .fetch, .request .publishBundle]) = some 1 := by
    decide +kernel
  obtain ⟨start, hsome, hp⟩ := (Option.any_eq_true _ _).mp hstart
  obtain ⟨hfirst, hsecond⟩ := of_decide_eq_true hp
  have hprovisioned := provisioned_of_joining hsome
  exact ⟨start, hprovisioned, exists_publication_between hprovisioned [.request .publishBundle]
    [.request .publishBundle] ⟨trivial, trivial⟩ hfirst hsecond⟩

end Scene

end Example

end MultiDevice
