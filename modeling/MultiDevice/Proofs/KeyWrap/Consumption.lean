import MultiDevice.Proofs.Entries
import MultiDevice.Proofs.Key.Numbering
import MultiDevice.Proofs.KeyWrap.Outcome
import MultiDevice.Proofs.Messenger.Request

/-!
# One-time pre-keys are used up once

The key wrapping of a device works on its store, between other work on the same store: keys are
removed and made, sessions are forgotten, and the device may start afresh. A one-time pre-key that
an unwrapping reports as used up is gone for good. No later unwrapping reports it, and none builds a
session with it.

## Main definitions

* `Operation`: what is asked of the key wrapping and of the store of a device
* `Operation.perform`, `run`: the store and the randomness afterwards
* `reported`: the one-time pre-keys that the unwrappings of a run reported as used up
* `made`: how many one-time pre-keys a run made

## Main results

* `Operation.follows`: no operation gives a number out again
* `unwrap_of_notMem`: what is built on a one-time pre-key that is gone fails and changes nothing
* `used_up_once`: a one-time pre-key is used up once, over a whole run
-/

namespace MultiDevice.KeyWrap

/-- What is asked of the key wrapping and of the store of a device. -/
inductive Operation where
  /-- Wraps a content key for a device. -/
  | wrap (device : DeviceAddress) (bundle : Option PreKeyBundle) (key : ContentKey)
  /-- Unwraps a content key from a device. -/
  | unwrap (device : DeviceAddress) (transport : KeyTransport)
  /-- Removes a one-time pre-key. -/
  | remove (id : UInt32)
  /-- Fills up the pool of one-time pre-keys. -/
  | replenish (target : Nat)
  /-- Forgets the sessions with a device. -/
  | deleteSession (device : DeviceAddress)
  /-- Starts afresh with new keys. -/
  | reprovision (count : Nat) (now : Time)
  /-- The signed pre-keys, the trust decisions and the randomness change. -/
  | surroundings (signedPreKeys : SignedPreKeyRing) (trust : TrustTable) (entropy : Entropy)

/-- A change of the store that may draw. Nothing of the store is changed when it fails. -/
def change {α : Type} (f : Store → Draw (α × Store)) : EStateM Error (Store × Entropy) α :=
  fun (s, e) =>
    match f s e with
    | .ok (a, s) e => .ok a (s, e)
    | .error err e => .error err (s, e)

/-- A change ends with the changed store, or with the store as it was. -/
theorem endState_change {α : Type} (f : Store → Draw (α × Store)) (s : Store) (e : Entropy) :
    (∃ a s' e', f s e = .ok (a, s') e' ∧ endState (change f) (s, e) = (s', e')) ∨
      ∃ err e', f s e = .error err e' ∧ endState (change f) (s, e) = (s, e') := by
  cases h : f s e with
  | ok p e' => exact .inl ⟨p.1, p.2, e', rfl, by simp only [endState, change, h]⟩
  | error err e' => exact .inr ⟨err, e', rfl, by simp only [endState, change, h]⟩

/-- What holds of a store holds after a change if it holds of the changed store. -/
theorem change_keeps {α : Type} {f : Store → Draw (α × Store)} {p : Store → Prop} {s : Store}
    {e : Entropy} (hs : p s) (hf : ∀ a s' e', f s e = .ok (a, s') e' → p s') :
    p (endState (change f) (s, e)).1 := by
  rcases endState_change f s e with ⟨a, s', e', h, hend⟩ | ⟨err, e', -, hend⟩
  · rw [hend]
    exact hf a s' e' h
  · rw [hend]
    exact hs

section Run

variable [CipherSuite]

/-- The store and the randomness after an operation, whether it succeeds or fails. -/
def Operation.perform (c : Settings) : Operation → Store × Entropy → Store × Entropy
  | wrap device bundle key, t => endState (change fun s => KeyWrap.wrap c s device bundle key) t
  | unwrap device transport, t => endState (change fun s => KeyWrap.unwrap c s device transport) t
  | remove id, (s, e) => ((s.removeOneTimePreKey id).2, e)
  | replenish target, t => endState (Store.replenish target) t
  | deleteSession device, (s, e) => (s.deleteSession device, e)
  | reprovision count now, t =>
    endState (change fun s => return ((), ← s.reprovision count now)) t
  | surroundings signedPreKeys trust entropy, (s, _) => ({ s with signedPreKeys, trust }, entropy)

/-- The one-time pre-key that an operation reports as used up. -/
def Operation.reported (c : Settings) : Operation → Store × Entropy → Option UInt32
  | unwrap device transport, t =>
    match change (fun s => KeyWrap.unwrap c s device transport) t with
    | .ok u _ => u.consumed
    | .error _ _ => none
  | _, _ => none

/-- How many one-time pre-keys an operation makes. Filling up draws nothing but such keys, and a
device that starts afresh makes as many as it is asked to, if it makes it. -/
def Operation.made (c : Settings) : Operation → Store × Entropy → Nat
  | replenish target, t => ((replenish target).perform c t).2.drawn - t.2.drawn
  | reprovision count now, (s, e) =>
    match s.reprovision count now e with
    | .ok _ _ => count
    | .error _ _ => 0
  | _, _ => 0

/-- The store and the randomness after a sequence of operations. -/
def run (c : Settings) (operations : List Operation) (t : Store × Entropy) : Store × Entropy :=
  operations.foldl (fun t operation => operation.perform c t) t

/-- The one-time pre-keys that a run reports as used up, in order. -/
def reported (c : Settings) : List Operation → Store × Entropy → List UInt32
  | [], _ => []
  | operation :: rest, t =>
    (operation.reported c t).toList ++ reported c rest (operation.perform c t)

/-- How many one-time pre-keys a run makes. -/
def made (c : Settings) : List Operation → Store × Entropy → Nat
  | [], _ => 0
  | operation :: rest, t => operation.made c t + made c rest (operation.perform c t)

open OneTimePreKeyPool

variable {c : Settings} {s s' : Store} {device : DeviceAddress} {e e' : Entropy} {given : Nat}

theorem wrap_oneTimePreKeys {bundle : Option PreKeyBundle} {key : ContentKey} {t : KeyTransport}
    (h : wrap c s device bundle key e = .ok (t, s') e') :
    s'.oneTimePreKeys = s.oneTimePreKeys := by
  obtain ⟨record, session, -, -, -, rfl⟩ := wrap_eq_ok_iff.mp h
  rfl

/-- The one-time pre-key that a new session is built with was there. -/
theorem mem_of_inbound {header : PreKeyHeader} {session : Session}
    (h : inbound c s header = .ok session) {id : UInt32}
    (hid : header.oneTimePreKeyId = some id) : id ∈ s.oneTimePreKeys.keys := by
  obtain ⟨signed, oneTime, -, honeTime, -⟩ := inbound_eq_ok_iff.mp h
  rw [hid, namedOneTimePreKey] at honeTime
  cases hget : s.oneTimePreKeys.get? id with
  | none =>
    rw [hget] at honeTime
    cases honeTime
  | some key => exact Entries.mem_of_getElem? hget

/-- What an unwrapping used up was there before, and it is all that is gone. -/
theorem unwrap_oneTimePreKeys {t : KeyTransport} {u : Unwrapped}
    (h : unwrap c s device t e = .ok (u, s') e') :
    (u.consumed = none ∧ s'.oneTimePreKeys = s.oneTimePreKeys) ∨
      ∃ id, u.consumed = some id ∧ id ∈ s.oneTimePreKeys.keys ∧
        s'.oneTimePreKeys = (s.oneTimePreKeys.remove id).2 := by
  obtain ⟨existing, reading, -, hread, -, -, -, hconsumed, rfl⟩ := exists_of_unwrap_eq_ok h
  cases hu : u.consumed with
  | none => exact .inl ⟨rfl, rfl⟩
  | some id =>
    refine .inr ⟨id, rfl, ?_, rfl⟩
    rw [hu] at hconsumed
    rcases exists_of_readTransport hread with ⟨record, -, -, hknown⟩ | ⟨header, hpre, -, hnew⟩
    · rw [Reading.consumed, (decrypt_of_readKnown hknown).2] at hconsumed
      cases hconsumed
    · obtain ⟨session, session', hbuilt, -, hreading⟩ := exists_of_readNew hnew
      refine mem_of_inbound hbuilt ?_
      rw [hreading, Reading.consumed, if_pos rfl, hpre] at hconsumed
      exact hconsumed.symm

/-- Unwrapping gives no number out. -/
theorem unwrap_follows {t : KeyTransport} {u : Unwrapped} (h : s.oneTimePreKeys.Numbered given)
    (hu : unwrap c s device t e = .ok (u, s') e') :
    Follows given 0 s.oneTimePreKeys s'.oneTimePreKeys := by
  rcases unwrap_oneTimePreKeys hu with ⟨-, heq⟩ | ⟨id, -, -, heq⟩
  · rw [heq]
    exact .refl h
  · rw [heq]
    exact h.remove id

/-- Nothing is built on a one-time pre-key that is gone. -/
theorem inbound_of_notMem {header : PreKeyHeader} {id : UInt32}
    (hid : header.oneTimePreKeyId = some id) (hgone : id ∉ s.oneTimePreKeys.keys) :
    ∃ err, err.area? = some .preKey ∧ inbound c s header = .error err := by
  unfold inbound
  cases s.signedPreKeys.get? header.signedPreKeyId with
  | none => exact ⟨.unknownSignedPreKey header.signedPreKeyId, rfl, rfl⟩
  | some signed =>
    have hget : s.oneTimePreKeys.get? id = none := Std.ExtTreeMap.getElem?_eq_none hgone
    refine ⟨.unknownOneTimePreKey id, rfl, ?_⟩
    rw [hid, namedOneTimePreKey, hget]
    rfl

/-- A transport whose header names a one-time pre-key that is gone, and a base key of no session
with its sender, is refused and changes nothing. -/
theorem unwrap_of_notMem {t : KeyTransport} {header : PreKeyHeader} {id : UInt32}
    {existing : Option SessionRecord} (hpre : t.preKey = some header)
    (hid : header.oneTimePreKeyId = some id) (hgone : id ∉ s.oneTimePreKeys.keys)
    (hload : s.loadSession device = .ok existing)
    (hnew : ∀ session ∈ existing.elim [] SessionRecord.sessions,
      ¬ SessionRecord.agreedWith (some header.baseKey) session = true) :
    ∃ err, err.area? = some .preKey ∧
      change (fun s => unwrap c s device t) (s, e) = .error err (s, e) := by
  obtain ⟨err, harea, hbuilt⟩ := inbound_of_notMem (c := c) hid hgone
  have hunwrap : unwrap c s device t e = .error err e := by
    refine (bind_of_ok (Draw.ofExcept_eq_ok_iff.mpr ⟨hload, rfl⟩)).trans (bind_of_error ?_)
    rw [readTransport_of_not_agreedWith hpre hnew, readNew, hbuilt]
    rfl
  refine ⟨err, harea, ?_⟩
  simp only [change, hunwrap]

/-- No operation gives a number out again: what was numbered before is there afterwards only if it
was there before. -/
theorem Operation.follows (operation : Operation) {t : Store × Entropy}
    (h : t.1.oneTimePreKeys.Numbered given) (hroom : given + operation.made c t < UInt32.size) :
    Follows given (operation.made c t) t.1.oneTimePreKeys
      (operation.perform c t).1.oneTimePreKeys := by
  obtain ⟨s, e⟩ := t
  have hsame : ∀ {s' : Store}, s'.oneTimePreKeys = s.oneTimePreKeys →
      Follows given 0 s.oneTimePreKeys s'.oneTimePreKeys := by
    intro s' heq
    rw [heq]
    exact .refl h
  cases operation with
  | wrap device bundle key =>
    exact change_keeps (p := fun s' => Follows given 0 s.oneTimePreKeys s'.oneTimePreKeys)
      (hsame rfl) fun _ _ _ hw => hsame (wrap_oneTimePreKeys hw)
  | unwrap device transport =>
    exact change_keeps (p := fun s' => Follows given 0 s.oneTimePreKeys s'.oneTimePreKeys)
      (hsame rfl) fun _ _ _ hu => unwrap_follows h hu
  | remove id => exact h.remove id
  | replenish target =>
    rw [made, perform, Store.endState_replenish] at hroom ⊢
    exact (replenish_extends target h hroom).follows
  | deleteSession device => exact hsame rfl
  | reprovision count now =>
    rcases endState_change (fun s => (return ((), ← s.reprovision count now) : Draw (Unit × Store)))
      s e with ⟨a, s', e', hr, hend⟩ | ⟨err, e', hr, hend⟩
    · obtain ⟨s₁, e₁, hr, hs⟩ := bind_eq_ok_iff.mp hr
      cases hs
      rw [perform, hend]
      simp only [made, hr] at hroom ⊢
      exact Store.reprovision_follows h hroom hr
    · rw [perform, hend]
      have hfailed : ∃ err e', s.reprovision count now e = .error err e' := by
        rcases bind_eq_error_iff.mp hr with hr | ⟨s₁, e₁, -, hs⟩
        · exact ⟨err, e', hr⟩
        · cases hs
      obtain ⟨err', e₁, hr⟩ := hfailed
      simp only [made, hr]
      exact .refl h
  | surroundings signedPreKeys trust entropy => exact hsame rfl

/-- What an operation reports as used up was there before and is not there afterwards. -/
theorem Operation.of_reported {operation : Operation} {t : Store × Entropy} {id : UInt32}
    (h : operation.reported c t = some id) :
    id ∈ t.1.oneTimePreKeys.keys ∧ id ∉ (operation.perform c t).1.oneTimePreKeys.keys := by
  cases operation with
  | unwrap device transport =>
    obtain ⟨s, e⟩ := t
    cases hu : KeyWrap.unwrap c s device transport e with
    | error err e' =>
      simp only [reported, change, hu] at h
      cases h
    | ok p e' =>
      obtain ⟨u, s'⟩ := p
      simp only [reported, change, hu] at h
      simp only [perform, endState, change, hu]
      rcases unwrap_oneTimePreKeys hu with ⟨hnone, -⟩ | ⟨id', hid, hmem, hpool⟩
      · cases hnone.symm.trans h
      · cases hid.symm.trans h
        rw [hpool]
        exact ⟨hmem, notMem_remove _ id⟩
  | _ => cases h

/-- A number that was given out and is gone stays gone, and is not reported any more. -/
theorem gone_of_gone (operations : List Operation) {t : Store × Entropy} {id : UInt32}
    (h : t.1.oneTimePreKeys.Numbered given) (hroom : given + made c operations t < UInt32.size)
    (hid : id.toNat ≤ given) (hgone : id ∉ t.1.oneTimePreKeys.keys) :
    id ∉ (run c operations t).1.oneTimePreKeys.keys ∧ id ∉ reported c operations t := by
  -- Induction on the operations, with the numbers given out so far kept track of.
  induction operations generalizing t given with
  | nil => exact ⟨hgone, List.not_mem_nil⟩
  | cons operation rest ih =>
    simp only [made] at hroom
    have hstep := operation.follows (c := c) h (by omega)
    have hgone' : id ∉ (operation.perform c t).1.oneTimePreKeys.keys := fun hm =>
      hgone (hstep.mem id hid hm)
    obtain ⟨hrun, hlater⟩ := ih hstep.numbered (by omega) (Nat.le_add_right_of_le hid) hgone'
    refine ⟨hrun, fun hm => ?_⟩
    rcases List.mem_append.mp hm with hm | hm
    · exact hgone (Operation.of_reported (Option.mem_toList.mp hm)).1
    · exact hlater hm

/-- Every number is reported once, and what was reported is gone at the end. -/
theorem nodup_reported (operations : List Operation) {t : Store × Entropy}
    (h : t.1.oneTimePreKeys.Numbered given) (hroom : given + made c operations t < UInt32.size) :
    (reported c operations t).Nodup ∧
      ∀ id ∈ reported c operations t, id ∉ (run c operations t).1.oneTimePreKeys.keys := by
  induction operations generalizing t given with
  | nil => exact ⟨List.nodup_nil, fun _ hm => absurd hm List.not_mem_nil⟩
  | cons operation rest ih =>
    simp only [made] at hroom
    have hstep := operation.follows (c := c) h (by omega)
    have hrest : given + operation.made c t + made c rest (operation.perform c t) <
      UInt32.size := by omega
    obtain ⟨hnodup, hgone⟩ := ih hstep.numbered hrest
    have hnow : ∀ id, operation.reported c t = some id →
        id ∉ (run c rest (operation.perform c t)).1.oneTimePreKeys.keys ∧
          id ∉ reported c rest (operation.perform c t) := by
      intro id hid
      obtain ⟨hbefore, hafter⟩ := Operation.of_reported hid
      exact gone_of_gone rest hstep.numbered hrest
        (Nat.le_add_right_of_le (h.id_le id hbefore)) hafter
    cases hr : operation.reported c t with
    | none =>
      have hreported : reported c (operation :: rest) t =
          reported c rest (operation.perform c t) := by
        rw [reported, hr]
        rfl
      rw [hreported]
      exact ⟨hnodup, hgone⟩
    | some id =>
      have hreported : reported c (operation :: rest) t =
          id :: reported c rest (operation.perform c t) := by
        rw [reported, hr]
        rfl
      rw [hreported]
      exact ⟨List.nodup_cons.mpr ⟨(hnow id hr).2, hnodup⟩,
        List.forall_mem_cons.mpr ⟨(hnow id hr).1, hgone⟩⟩

/-- One-time pre-keys are used up once. In a run from a device that was just set up, in which fewer
than `2 ^ 32` of them are made, every number is reported as used up at most once; what was reported
is not there any more, wherever the run has got to; and a transport that names it, with a base key
of no session with its sender, is refused because of its pre-keys and changes nothing. -/
theorem used_up_once {count : Nat} {now : Time} (h : Store.provision count now e = .ok s e')
    (operations : List Operation)
    (hroom : count + made c operations (s, e') < UInt32.size) :
    (reported c operations (s, e')).Nodup ∧
      ∀ id ∈ reported c operations (s, e'),
        (run c operations (s, e')).1.oneTimePreKeys.get? id = none ∧
        ∀ (device : DeviceAddress) (t : KeyTransport) (header : PreKeyHeader)
          (existing : Option SessionRecord), t.preKey = some header →
          header.oneTimePreKeyId = some id →
          (run c operations (s, e')).1.loadSession device = .ok existing →
          (∀ session ∈ existing.elim [] SessionRecord.sessions,
            ¬ SessionRecord.agreedWith (some header.baseKey) session = true) →
          ∃ err, err.area? = some .preKey ∧
            change (fun s => unwrap c s device t) (run c operations (s, e')) =
              .error err (run c operations (s, e')) := by
  have hnumbered : s.oneTimePreKeys.Numbered count := (Store.numbered_of_provision (by omega) h).1
  obtain ⟨hnodup, hgone⟩ := nodup_reported operations (t := (s, e')) hnumbered hroom
  refine ⟨hnodup, fun id hid => ⟨Std.ExtTreeMap.getElem?_eq_none (hgone id hid), ?_⟩⟩
  intro device t header existing hpre hnamed hload hnew
  exact unwrap_of_notMem hpre hnamed (hgone id hid) hload hnew

end Run

section Revisited

attribute [local instance] CipherSuite.transparent

/-- The first content key that reaches a device with one one-time pre-key. -/
def firstTransport? (c : Settings) (host : Store) (e : Entropy) : Option KeyTransport :=
  match Store.provision 0 .epoch e with
  | .error _ _ => none
  | .ok guest e =>
    match host.signedPreKeys.current? with
    | .error _ => none
    | .ok signed =>
      match wrap c guest ⟨"alice", 1⟩ (some ((Messenger.bundle host signed).pick (some 1)))
          ⟨Block.zero 32⟩ e with
      | .ok (transport, _) _ => some transport
      | .error _ _ => none

/-- A device that was just set up with so many one-time pre-keys, and the randomness left. -/
def setUp? (count : Nat) : Option (Store × Entropy) :=
  match Store.provision count .epoch .counting with
  | .ok s e => some (s, e)
  | .error _ _ => none

theorem provision_of_setUp {count : Nat} {t : Store × Entropy} (h : setUp? count = some t) :
    Store.provision count .epoch .counting = .ok t.1 t.2 := by
  unfold setUp? at h
  split at h
  · next hs =>
    cases h
    exact hs
  · cases h

/-- A first content key arrives; the pool is filled up, the session is forgotten, and the device
starts afresh. -/
def revisited (t : KeyTransport) : List Operation :=
  [.unwrap ⟨"bob", 1⟩ t, .replenish 1, .deleteSession ⟨"bob", 1⟩, .reprovision 2 .epoch]

/-- The one-time pre-key of a first content key is used up, and stays so when the pool is filled up
again and the device starts afresh: the same transport is refused then. -/
theorem used_up_once_of_revisited :
    ∃ s e t, Store.provision 1 .epoch .counting = .ok s e ∧
      reported MultiDevice.Settings.standard.keyWrap (revisited t) (s, e) = [1] ∧
      (run MultiDevice.Settings.standard.keyWrap (revisited t) (s, e)).1.oneTimePreKeys.get? 1 =
        none ∧
      ∃ err, err.area? = some .preKey ∧
        change (fun s => unwrap MultiDevice.Settings.standard.keyWrap s ⟨"bob", 1⟩ t)
            (run MultiDevice.Settings.standard.keyWrap (revisited t) (s, e)) =
          .error err (run MultiDevice.Settings.standard.keyWrap (revisited t) (s, e)) := by
  let c := MultiDevice.Settings.standard.keyWrap
  have hvisit : (match Store.provision 1 .epoch .counting with
      | .error _ _ => false
      | .ok s e => (firstTransport? c s e).any fun t =>
          made c (revisited t) (s, e) = 3 ∧ reported c (revisited t) (s, e) = [1] ∧
            t.preKey.any (·.oneTimePreKeyId = some 1) ∧
            ¬ (⟨"bob", 1⟩ ∈ (run c (revisited t) (s, e)).1.sessions)) = true := by
    decide +kernel
  cases h : Store.provision 1 .epoch .counting with
  | error err e =>
    rw [h] at hvisit
    cases hvisit
  | ok s e =>
    rw [h] at hvisit
    obtain ⟨t, -, hvisit⟩ := (Option.any_eq_true _ _).mp hvisit
    obtain ⟨hmade, hreported, hheader, hforgotten⟩ := of_decide_eq_true hvisit
    obtain ⟨header, hpre, hid⟩ := (Option.any_eq_true _ _).mp hheader
    have hload : (run c (revisited t) (s, e)).1.loadSession ⟨"bob", 1⟩ = .ok none := by
      rw [Store.loadSession, Std.ExtTreeMap.getElem?_eq_none hforgotten]
    obtain ⟨-, hgone⟩ := used_up_once h (revisited t) (by rw [hmade]; decide)
    obtain ⟨hnone, hrefused⟩ := hgone 1 (by rw [hreported]; exact List.mem_singleton_self 1)
    refine ⟨s, e, t, rfl, hreported, hnone, ?_⟩
    exact hrefused ⟨"bob", 1⟩ t header none hpre (of_decide_eq_true hid) hload nofun

end Revisited

end MultiDevice.KeyWrap
