import MultiDevice.Proofs.Exchange.Deliver
import MultiDevice.Proofs.Messenger.Storage

/-!
# Whatever two devices do, what arrives is read

Two devices that were just set up encrypt, tend their keys, decide on trust and read in any order.
Their envelopes arrive in any order, late or never, and both may start a thread before anything
arrives. An envelope that is within reach is read, and gives the message that was encrypted.

## Main definitions

* `Exchange.Ordinary`: nothing happened that does not happen in practice

## Main results

* `Exchange.fits_of_countP_le`: what the devices store can be stored unless very many envelopes
  arrive
* `Exchange.InStep.step`, `Exchange.InStep.run`: whatever happens keeps the devices in step
* `Exchange.exists_decrypted_of_readable`: an envelope within reach is read
-/

namespace MultiDevice.Exchange

section Run

variable [CipherSuite] {e₀ : Entropy} {c : Exchange} {thread : Threads}

/-- The stored sessions have lengths of 64 bits, and the keys drawn so far are different points. -/
structure Ordinary (e₀ : Entropy) (c : Exchange) : Prop where
  fits : c.Fits
  distinct : e₀.DrawsDistinct c.entropy.drawn

/-- What a device is asked to do when an event happens, and which device that is. -/
def Event.request? (c : Exchange) : Event → Option (Party × Request)
  | encrypt w recipients plaintext allowed => some (w, .encryptFor recipients plaintext allowed)
  | deliver w envelope =>
    if c.InFlight w envelope then some (w, .decrypt (c.address w.peer) envelope) else none
  | tend w task => some (w, task.request)
  | wait _ => none

/-- An event is a request to one of the devices, or leaves both alone. -/
theorem messenger_step (c : Exchange) (event : Event) :
    (c.step event).messenger = match event.request? c with
      | some (w, request) => (c.after w (request.perform (c.scene w))).messenger
      | none => c.messenger := by
  cases event with
  | encrypt w recipients plaintext allowed =>
    simp only [step, Event.request?, Request.perform, endState]
    cases Messenger.encryptFor recipients plaintext allowed (c.scene w) <;> rfl
  | deliver w envelope =>
    simp only [step, Event.request?]
    by_cases hflight : c.InFlight w envelope
    · rw [if_pos hflight, if_pos hflight]
      simp only [Request.perform]
      split
      · next hd =>
        rw [hd]
        rfl
      · next hd => rw [hd]
    · rw [if_neg hflight, if_neg hflight]
  | tend w task => rfl
  | wait now => rfl

/-! ## What the devices store -/

/-- Whether an event is the arrival of an envelope. -/
def Event.isDelivery : Event → Bool
  | deliver _ _ => true
  | _ => false

/-- Only the arrival of an envelope makes the records of the devices less compact. -/
theorem compact_step {k : Nat} (h : ∀ v, (c.store v).Compact k) (event : Event) (v : Party) :
    ((c.step event).store v).Compact (k + [event].countP Event.isDelivery * (2 * UInt32.size)) := by
  have hsame :=
    (h v).mono (Nat.le_add_right k ([event].countP Event.isDelivery * (2 * UInt32.size)))
  have hacted : ∀ (w : Party) (request : Request),
      ((c.after w (request.perform (c.scene w))).store v).Compact
        (k + request.reads * (2 * UInt32.size)) := by
    intro w request
    revert v
    refine Party.forall_of w ?_ ?_
    · intro _
      rw [after_store_self]
      exact request.perform_compact (h w)
    · intro _
      rw [after_store_peer]
      exact (h w.peer).mono (Nat.le_add_right _ _)
  unfold store
  rw [messenger_step]
  cases event with
  | encrypt w recipients plaintext allowed =>
    exact hacted w (.encryptFor recipients plaintext allowed)
  | deliver w envelope =>
    simp only [Event.request?]
    split
    · next hsome =>
      split at hsome
      · cases hsome
        exact hacted w (.decrypt (c.address w.peer) envelope)
      · cases hsome
    · exact hsame
  | tend w task =>
    have hreads : task.request.reads = 0 := by cases task <;> rfl
    have hx := hacted w task.request
    rw [hreads] at hx
    exact hx
  | wait now => exact hsame

/-- How compact the records of the devices are depends on how many envelopes arrived. -/
theorem compact_run {start : Exchange} (h : ∀ v, (start.store v).sessions = ∅)
    (events : List Event) (v : Party) :
    ((start.run events).store v).Compact (events.countP Event.isDelivery * (2 * UInt32.size)) := by
  -- Induction on the events, from records that may have grown before.
  have hrun : ∀ (events : List Event) {c : Exchange} {k : Nat}, (∀ v, (c.store v).Compact k) →
      ∀ v, ((c.run events).store v).Compact
        (k + events.countP Event.isDelivery * (2 * UInt32.size)) := by
    intro events
    induction events with
    | nil => exact fun h v => (h v).mono (Nat.le_add_right _ _)
    | cons event events ih =>
      intro c k h v
      have hcount : (event :: events).countP Event.isDelivery =
          [event].countP Event.isDelivery + events.countP Event.isDelivery := by
        rw [← List.countP_append]
        rfl
      rw [hcount, Nat.add_mul, ← Nat.add_assoc]
      exact ih (fun v => compact_step h event v) v
  have hcompact := hrun events (k := 0) (fun v => .empty (h v)) v
  rwa [Nat.zero_add] at hcompact

/-- What the devices store has lengths of 64 bits unless very many envelopes arrive. -/
theorem fits_of_countP_le {start : Exchange} (h : ∀ v, (start.store v).sessions = ∅)
    {events : List Event} (hfew : events.countP Event.isDelivery ≤ 2 ^ 18) (n : Nat) :
    (start.run (events.take n)).Fits := by
  intro v device bytes hb
  have hle : (events.take n).countP Event.isDelivery ≤ 2 ^ 18 :=
    Nat.le_trans ((List.take_sublist n events).countP_le) hfew
  refine (compact_run h (events.take n) v).length_lt ?_ hb
  exact Nat.mul_le_mul_right (2 * UInt32.size) hle

/-! ## Any order of events -/

omit [CipherSuite] in
theorem makes_cons (v : Party) (event : Event) (events : List Event) :
    makes v (event :: events) = makes v [event] + makes v events := by
  simp [makes]

/-- Only upkeep of a device makes signed pre-keys. -/
theorem nextId_step (h : c.Sound e₀ thread) (event : Event)
    (hroom : ∀ v, (c.store v).signedPreKeys.nextId.toNat + makes v [event] < UInt32.size)
    (v : Party) : ((c.step event).store v).signedPreKeys.nextId.toNat ≤
      (c.store v).signedPreKeys.nextId.toNat + makes v [event] := by
  have hleaves : ∀ (w : Party) (s : Scene), s.messenger.store.signedPreKeys =
      (c.store w).signedPreKeys → ((c.after w s).store v).signedPreKeys.nextId.toNat ≤
        (c.store v).signedPreKeys.nextId.toNat + makes v [event] := by
    intro w s hs
    by_cases hv : v = w
    · subst hv
      rw [after_store_self, hs]
      exact Nat.le_add_right _ _
    · rw [Party.eq_peer_of_ne hv, after_store_peer]
      exact Nat.le_add_right _ _
  have hv : IgnoresTraffic fun s : Scene => s.messenger.store.signedPreKeys :=
    ⟨⟨fun _ _ => rfl, fun _ _ => rfl, fun _ _ => rfl, fun _ _ => rfl⟩, fun _ _ _ => rfl⟩
  unfold store
  rw [messenger_step]
  cases event with
  | encrypt w recipients plaintext allowed =>
    exact hleaves w _ (Messenger.encryptFor_leaves hv recipients plaintext allowed _)
  | deliver w envelope =>
    simp only [Event.request?]
    split
    · next hsome =>
      split at hsome
      · cases hsome
        refine hleaves w _ ?_
        rw [Request.perform, Messenger.decrypt_snd]
        exact Messenger.read_leaves hv (c.address w.peer) envelope (c.scene w)
      · cases hsome
    · exact Nat.le_add_right _ _
  | tend w task =>
    have hmakes : ∀ u, makes u [.tend w task] = if w = u then task.makes else 0 := fun u => by
      simp [makes]
    have hw := hroom w
    rw [hmakes, if_pos rfl] at hw
    have htended : Tended e₀ task.makes (c.scene w) (task.request.perform (c.scene w)) :=
      task.perform_tended (h.ring w) h.entropy hw
    rw [hmakes]
    exact (h.acts_of_tended htended).nextId_le v
  | wait now => exact Nat.le_add_right _ _

section Laws

variable (hc : AgreementCommutes) (hseals : OpensSealed) (hopens : OpensOnlySealed)
  (hrefuses : ∀ n, e₀.refuses n = false)
include hc hseals hopens hrefuses

/-- Whatever happens keeps the devices in step. -/
theorem InStep.step (h : c.InStep e₀ thread) (event : Event) (hfits : c.Fits)
    (hordinary : (c.step event).Ordinary e₀)
    (hroom : ∀ v, (c.store v).signedPreKeys.nextId.toNat + makes v [event] < UInt32.size) :
    ∃ thread', (c.step event).InStep e₀ thread' := by
  cases event with
  | encrypt w recipients plaintext allowed =>
    exact h.encrypt hc hseals hopens hfits hordinary.fits hordinary.distinct
  | deliver w envelope =>
    exact h.deliver hc hseals hopens hrefuses hfits hordinary.distinct
  | tend w task =>
    have hw := hroom w
    have hmakes : makes w [.tend w task] = task.makes := by simp [makes]
    rw [hmakes] at hw
    exact ⟨thread, h.tended (task.perform_tended (h.sound.ring w) h.sound.entropy hw)⟩
  | wait now =>
    exact ⟨thread, h.sound.congr rfl rfl rfl, fun v => (h.keeps v).congr rfl,
      h.logged.congr rfl rfl rfl⟩

/-- Whatever happens, in whatever order, keeps the devices in step. -/
theorem InStep.run (events : List Event) {c : Exchange} {thread : Threads}
    (h : c.InStep e₀ thread) (hordinary : ∀ n, (c.run (events.take n)).Ordinary e₀)
    (hroom : ∀ v, (c.store v).signedPreKeys.nextId.toNat + makes v events < UInt32.size) :
    ∃ thread', (c.run events).InStep e₀ thread' := by
  induction events generalizing c thread with
  | nil => exact ⟨thread, h⟩
  | cons event events ih =>
    have hroom' : ∀ v, (c.store v).signedPreKeys.nextId.toNat + makes v [event] +
        makes v events < UInt32.size := by
      intro v
      rw [Nat.add_assoc, ← makes_cons]
      exact hroom v
    have hone := fun v => Nat.lt_of_le_of_lt (Nat.le_add_right _ _) (hroom' v)
    obtain ⟨thread', h'⟩ :=
      h.step hc hseals hopens hrefuses event (hordinary 0).fits (hordinary 1) hone
    refine ih h' (fun n => hordinary (n + 1)) fun v => ?_
    exact Nat.lt_of_le_of_lt (Nat.add_le_add_right (nextId_step h.sound event hone v) _) (hroom' v)

/-- **Whatever two devices do, what arrives is read.** Two devices that were just set up encrypt,
tend their keys, decide on trust and read in any order, while each makes fewer signed pre-keys than
there are numbers. An envelope that was not read before, that carries a key for the device, and that
is not too far ahead is read: it gives the message that was encrypted, the address of the sender and
its fingerprint. -/
theorem exists_decrypted_of_readable {start : Exchange} (hstart : New e₀ start)
    (events : List Event) (hordinary : ∀ n, (start.run (events.take n)).Ordinary e₀)
    (hroom : ∀ v, 2 + makes v events < UInt32.size) (hrun : c = start.run events) {who : Party}
    {x : Sent} (hsent : x ∈ c.sent who.peer) (hunread : x.envelope ∉ c.received who)
    {transport : KeyTransport} (hkey : x.envelope.keyFor (c.address who) = some transport)
    (hreadable : c.Readable who x) :
    ∃ trust s, Messenger.decrypt (c.address who.peer) x.envelope (c.scene who) =
      (.decrypted {
        plaintext := x.plaintext
        sender := c.address who.peer
        trust
        fingerprint := (c.messenger who.peer).ownFingerprint }, s) := by
  subst hrun
  have hdistinct : e₀.DrawsDistinct start.entropy.drawn := (hordinary 0).distinct
  have hnumbers : ∀ v,
      (start.store v).signedPreKeys.nextId.toNat + makes v events < UInt32.size := by
    intro v
    rw [(hstart.sets_up v).2.2.1]
    exact hroom v
  obtain ⟨thread, h⟩ := InStep.run hc hseals hopens hrefuses events
    ⟨hstart.sound hdistinct, hstart.keeps, hstart.logged⟩ hordinary hnumbers
  have hfits : (start.run events).Fits := by
    have hfits := (hordinary events.length).fits
    rw [List.take_length] at hfits
    exact hfits
  obtain ⟨p, t, key, ha⟩ := h.exists_arrives hsent hunread hkey
  obtain ⟨u, s, hu⟩ := ha.exists_unwrapFrom hc hseals hrefuses hopens h hfits hreadable
  obtain ⟨trust, hd⟩ := ha.decrypt_eq hc hseals hrefuses hopens h hfits hu
  exact ⟨trust, _, hd⟩

end Laws

end Run

section FirstContact

attribute [local instance] CipherSuite.transparent

/-- Two devices without one-time pre-keys that were just set up. -/
def newcomers? : Option Exchange :=
  let settings := { Settings.standard with minOneTimePreKeys := 0, maxOneTimePreKeys := 0 }
  match Messenger.provision ⟨"alice", 1⟩ settings .epoch .counting with
  | .error _ _ => none
  | .ok first e =>
    match Messenger.provision ⟨"bob", 1⟩ settings .epoch e with
    | .error _ _ => none
    | .ok second e => some (start first second .empty .epoch e)

/-- The second device publishes its bundle, and the first one writes to it. -/
def firstContact : List Event :=
  [.tend .second .publishBundle, .tend .first (.decideTrust ⟨"bob", 1⟩ .trusted),
    .encrypt .first ["bob"] [1, 2, 3] ∅]

theorem new_of_newcomers {c : Exchange} (h : newcomers? = some c) : New .counting c := by
  have hpool : ∀ w, newcomers?.all fun c => (c.messenger w).settings.maxOneTimePreKeys = 0 := by
    intro w
    cases w <;> decide +kernel
  have haddress : newcomers?.all fun c => c.address .first = ⟨"alice", 1⟩ ∧
      c.address .second = ⟨"bob", 1⟩ ∧
      (c.messenger .first).settings.info = (c.messenger .second).settings.info := by
    decide +kernel
  rw [h] at hpool haddress
  simp only [Option.all_some, decide_eq_true_eq] at hpool haddress
  obtain ⟨hfirst, hsecond, hinfo⟩ := haddress
  simp only [newcomers?] at h
  split at h
  · cases h
  · next first e hf =>
    split at h
    · cases h
    · next second e' hs =>
      cases h
      rw [← hfirst] at hf
      rw [← hsecond] at hs
      refine ⟨⟨first, second, _, _, _, _, e, hf, hs, rfl⟩, ?_, hinfo, ?_, rfl⟩
      · rw [hfirst, hsecond]
        decide
      · intro w
        rw [hpool w]
        decide

/-- Nothing extraordinary happens during a first contact. -/
theorem ordinary_firstContact {c : Exchange} (h : newcomers? = some c) (n : Nat) :
    (c.run (firstContact.take n)).Ordinary .counting := by
  have hdrawn : newcomers?.all fun c =>
      ∀ n < 4, (c.run (firstContact.take n)).entropy.drawn ≤ 8 := by
    decide +kernel
  have hall : ∀ k < 8, ∀ j < k, ¬ (Entropy.counting.key j).SamePoint (Entropy.counting.key k) := by
    decide +kernel
  have hdistinct : Entropy.counting.DrawsDistinct 8 := fun j k _ hjk hk => hall k hk j hjk
  rw [h] at hdrawn
  simp only [Option.all_some, decide_eq_true_eq] at hdrawn
  refine ⟨fits_of_countP_le (fun v => ((new_of_newcomers h).sets_up v).1) (by decide) n,
    hdistinct.mono ?_⟩
  by_cases hn : n < 4
  · exact hdrawn n hn
  · have hlength : firstContact.length = 3 := rfl
    have htake : firstContact.take n = firstContact.take 3 := List.take_of_length_le (by omega)
    rw [htake]
    exact hdrawn 3 (by decide)

/-- The first message carries a key for the other device, which can build a session for it. -/
theorem readable_firstContact {c : Exchange} (h : newcomers? = some c) {x : Sent}
    (hx : x ∈ (c.run firstContact).sent .first) :
    (x.envelope.keyFor ((c.run firstContact).address .second)).isSome ∧
      (c.run firstContact).Readable .second x := by
  have hkept : newcomers?.all fun c => ((c.run firstContact).store .second).sessions.isEmpty := by
    decide +kernel
  have hkeys : newcomers?.all fun c => ∀ x ∈ (c.run firstContact).sent .first,
      (x.envelope.keyFor ((c.run firstContact).address .second)).any fun t =>
        t.message.header.number ≤ ((c.run firstContact).messenger .second).settings.maxSkip ∧
        t.preKey.all fun h =>
          (((c.run firstContact).store .second).signedPreKeys.get? h.signedPreKeyId).isSome := by
    decide +kernel
  rw [h] at hkept hkeys
  simp only [Option.all_some, decide_eq_true_eq] at hkept hkeys
  obtain ⟨transport, hkey, hreach⟩ := (Option.any_eq_true _ _).mp (hkeys x hx)
  refine ⟨Option.isSome_iff_exists.mpr ⟨transport, hkey⟩, fun transport' htransport => ?_⟩
  cases hkey.symm.trans htransport
  have hempty : ((c.run firstContact).store .second).sessions[
      (c.run firstContact).address (Party.peer .second)]? = none := by
    rw [Std.ExtTreeMap.isEmpty_iff.mp hkept, Std.ExtTreeMap.getElem?_empty]
  have hnone : (c.run firstContact).sessions .second = [] := by
    rw [sessions, Store.loadSession, hempty]
  obtain ⟨hnumber, hring⟩ := of_decide_eq_true hreach
  rw [hnone]
  refine ⟨hnumber, fun header hh => ?_⟩
  rw [hh] at hring
  exact hring

/-- A first message is read. -/
theorem exists_decrypted_of_firstContact :
    ∃ start x, newcomers? = some start ∧ x ∈ (start.run firstContact).sent .first ∧
      ∃ trust s, Messenger.decrypt ((start.run firstContact).address .first) x.envelope
          ((start.run firstContact).scene .second) =
        (.decrypted {
          plaintext := [1, 2, 3]
          sender := (start.run firstContact).address .first
          trust
          fingerprint := ((start.run firstContact).messenger .first).ownFingerprint }, s) := by
  obtain ⟨start, hstart⟩ := Option.isSome_iff_exists.mp
    (by decide +kernel : newcomers?.isSome = true)
  have hsent : newcomers?.all fun c => (c.run firstContact).sent .first ≠ [] := by decide +kernel
  have hplaintext : newcomers?.all fun c =>
      ∀ x ∈ (c.run firstContact).sent .first, x.plaintext = [1, 2, 3] := by
    decide +kernel
  have hunread : newcomers?.all fun c => (c.run firstContact).received .second = [] := by
    decide +kernel
  rw [hstart] at hsent hplaintext hunread
  simp only [Option.all_some, decide_eq_true_eq] at hsent hplaintext hunread
  obtain ⟨x, hx⟩ := List.exists_mem_of_ne_nil _ hsent
  obtain ⟨hkey, hreadable⟩ := readable_firstContact hstart hx
  obtain ⟨transport, hkey⟩ := Option.isSome_iff_exists.mp hkey
  have hroom : ∀ v, 2 + makes v firstContact < UInt32.size := by
    intro v
    cases v <;> decide
  have hread := exists_decrypted_of_readable CipherSuite.transparent_agreementCommutes
    CipherSuite.transparent_opensSealed CipherSuite.transparent_opensOnlySealed (fun _ => rfl)
    (new_of_newcomers hstart) firstContact (ordinary_firstContact hstart) hroom rfl hx
    (by rw [hunread]; exact List.not_mem_nil) hkey hreadable
  rw [hplaintext x hx] at hread
  exact ⟨start, x, hstart, hx, hread⟩

end FirstContact

end MultiDevice.Exchange
