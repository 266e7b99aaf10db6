import MultiDevice.Proofs.Ratchet.Conversation
import MultiDevice.Proofs.Ratchet.KeyUse
import MultiDevice.Proofs.Ratchet.Message

/-!
# Conversations over a network that is not to be trusted

Two parties encrypt in any order, and whoever controls the network hands them whatever messages it
likes: late, twice, changed or made up. What a party accepts is what the other one sent, and it
accepts it once.

The cipher suite is taken to be ideal in the run at hand only: what a party derived are different
keys, and a ciphertext opens only where it was sealed.

## Main definitions

* `Exposed`: two ratchets, and what they sent, accepted, derived and sealed
* `Exposed.step`, `Exposed.run`: what happens, one thing after another
* `Exposed.Unforged`: nothing that was opened was forged

## Main results

* `Exposed.Sound.step`: whatever happens, keys are used once and only what was sent is accepted
* `Exposed.accepted_of_unforged`: what is accepted was sent by the other party, and is accepted once
-/

namespace MultiDevice

open MultiDevice.Derivation (Distinct)
open Conversation (Event)

/-- An encryption: who made it, the cipher key, the data that it vouches for, and the message. -/
structure Sealing where
  /-- The party that encrypted. -/
  party : Party
  /-- The cipher key. -/
  key : Block 32
  /-- The data that the ciphertext vouches for. -/
  data : Bytes
  /-- The message that was made. -/
  message : RatchetMessage
  deriving DecidableEq

/-- Two ratchets, each with a source of randomness of its own, and a record of what they did. -/
structure Exposed where
  /-- The state of each party. -/
  ratchet : Party → Ratchet
  /-- Where each party draws from. -/
  entropy : Party → Entropy
  /-- What each party sent. -/
  sent : Party → List RatchetMessage
  /-- The messages that were accepted, with the party that accepted them. -/
  accepted : List (Party × RatchetMessage)
  /-- The derivations that each party made for what it sent and accepted. -/
  derived : Party → List Derivation
  /-- The encryptions that were made. -/
  sealings : List Sealing

section Sealing

variable [CipherSuite]

/-- The encryption of a message under the next message key. -/
def Ratchet.sealing (r : Ratchet) (who : Party) (m : RatchetMessage) : List Sealing :=
  match r.sending with
  | none => []
  | some chain =>
    [{ party := who
       key := (deriveCipher chain.messageKey).1
       data := vouched r.associatedData m.header
       message := m }]

/-- A message that was sent was sealed under a message key derived for it. -/
theorem Ratchet.of_mem_sealing {r r' : Ratchet} {who : Party} {p : Bytes} {m : RatchetMessage}
    {x : Sealing} (h : Ratchet.encrypt p r = .ok m r') (hx : x ∈ r.sealing who m) :
    x.party = who ∧ x.message = m ∧ (∃ ad, x.data = vouched ad x.message.header) ∧
      ∃ key, .cipher key ∈ r.derivedNext ∧ x.key = (Derivation.cipher key).output := by
  unfold sealing at hx
  unfold encrypt at h
  unfold derivedNext
  cases hsend : r.sending with
  | none =>
    rw [hsend] at h
    cases h
  | some chain =>
    rw [hsend] at h hx
    simp only at h hx ⊢
    have hlast : ¬ chain.index = Chain.lastIndex := by
      intro hlast
      rw [Chain.advance, if_pos hlast] at h
      cases h
    rw [List.mem_singleton.mp hx, if_neg hlast]
    exact ⟨rfl, rfl, ⟨_, rfl⟩, chain.messageKey, by simp, rfl⟩

end Sealing

namespace Exposed

section Run

variable [CipherSuite]

/-- Before anything was sent: the initiator has derived its first chain from the secret. -/
def start (secret : Block 32) (remote : PublicKey) (initiator responder : Ratchet)
    (entropy : Party → Entropy) : Exposed where
  ratchet
    | .first => initiator
    | .second => responder
  entropy
  sent _ := []
  accepted := []
  derived
    | .first =>
      let shared := initiator.secret.agree remote
      [.agreed secret] ++ [.root secret shared, .chain secret shared]
    | .second => [.agreed secret]
  sealings := []

/-- What is recorded after one event. Any message may arrive. -/
def step (c : Exposed) : Event → Exposed
  | .send who plaintext =>
    match (c.ratchet who).encrypt plaintext with
    | .ok m r =>
      { c with
        ratchet := Function.update c.ratchet who r
        sent := Function.update c.sent who (m :: c.sent who)
        derived := Function.update c.derived who (c.derived who ++ (c.ratchet who).derivedNext)
        sealings := (c.ratchet who).sealing who m ++ c.sealings }
    | .error _ r =>
      { c with
        ratchet := Function.update c.ratchet who r
        derived := Function.update c.derived who (c.derived who ++ (c.ratchet who).derivedNext) }
  | .deliver who m =>
    match (c.ratchet who).decrypt m (c.entropy who) with
    | .ok (_, r) entropy =>
      { c with
        ratchet := Function.update c.ratchet who r
        entropy := Function.update c.entropy who entropy
        accepted := (who, m) :: c.accepted
        derived := Function.update c.derived who
          (c.derived who ++ (c.ratchet who).derivedFor m (c.entropy who)) }
    | .error _ entropy => { c with entropy := Function.update c.entropy who entropy }

/-- What is recorded after several events. -/
def run (c : Exposed) (events : List Event) : Exposed := events.foldl step c

@[simp] theorem run_nil (c : Exposed) : c.run [] = c := rfl

@[simp] theorem run_cons (c : Exposed) (event : Event) (events : List Event) :
    c.run (event :: events) = (c.step event).run events := rfl

/-- A ciphertext that is opened now was sealed before, and wherever it was, under the key and for
the data with which it is opened. -/
def UnforgedAt (c : Exposed) : Event → Prop
  | .send _ _ => True
  | .deliver who m =>
    ∀ key ∈ (c.ratchet who).opens? m (c.entropy who),
      (∃ x ∈ c.sealings, x.message.ciphertext = m.ciphertext) ∧
      ∀ x ∈ c.sealings, x.message.ciphertext = m.ciphertext →
        x.key = (Ratchet.deriveCipher key).1 ∧
          x.data = Ratchet.vouched (c.ratchet who).associatedData m.header

instance (c : Exposed) (event : Event) : Decidable (c.UnforgedAt event) :=
  match event with
  | .send _ _ => isTrue trivial
  | .deliver who m =>
    inferInstanceAs (Decidable (∀ key ∈ (c.ratchet who).opens? m (c.entropy who), _))

/-- Nothing that is opened in a run was forged. -/
def Unforged : Exposed → List Event → Prop
  | _, [] => True
  | c, event :: events => c.UnforgedAt event ∧ (c.step event).Unforged events

instance (c : Exposed) (events : List Event) : Decidable (c.Unforged events) :=
  match events with
  | [] => isTrue trivial
  | event :: events =>
    have := instDecidableUnforged (c.step event) events
    inferInstanceAs (Decidable (_ ∧ _))

/-! ## What every event keeps -/

/-- Keys are used once, and what was accepted is what the other party sent, under the key that it
was sent under. -/
structure Sound (c : Exposed) : Prop where
  unspent : ∀ w, Unspent (c.derived w) ((c.ratchet w).keyIn none)
  sealings : ∀ x ∈ c.sealings, x.message ∈ c.sent x.party ∧
    (∃ ad, x.data = Ratchet.vouched ad x.message.header) ∧
    ∃ key, .cipher key ∈ c.derived x.party ∧ x.key = (Derivation.cipher key).output
  accepted : ∀ w m, (w, m) ∈ c.accepted → ∃ x ∈ c.sealings, x.party = w.peer ∧ x.message = m ∧
    ∃ key, .cipher key ∈ c.derived w ∧ x.key = (Derivation.cipher key).output
  once : (c.accepted.map Prod.snd).Nodup

variable {c : Exposed} {who : Party} {r : Ratchet} {made : List Derivation}

omit [CipherSuite] in
theorem derived_subset_update (c : Exposed) (who : Party) (made : List Derivation) (w : Party) :
    c.derived w ⊆ Function.update c.derived who (c.derived who ++ made) w := by
  by_cases hw : w = who
  · subst hw
    rw [Function.update_self]
    exact List.subset_append_left _ _
  · rw [Function.update_of_ne hw]
    exact List.Subset.refl _

omit [CipherSuite] in
theorem sent_subset_update (c : Exposed) (who : Party) (m : RatchetMessage) (w : Party) :
    c.sent w ⊆ Function.update c.sent who (m :: c.sent who) w := by
  by_cases hw : w = who
  · subst hw
    rw [Function.update_self]
    exact List.subset_cons_self _ _
  · rw [Function.update_of_ne hw]
    exact List.Subset.refl _

theorem derived_subset_step (c : Exposed) (event : Event) (w : Party) :
    c.derived w ⊆ (c.step event).derived w := by
  unfold step
  split
  · split
    · exact c.derived_subset_update _ _ w
    · exact c.derived_subset_update _ _ w
  · split
    · exact c.derived_subset_update _ _ w
    · exact List.Subset.refl _

theorem derived_subset_run (c : Exposed) (events : List Event) (w : Party) :
    c.derived w ⊆ (c.run events).derived w := by
  induction events generalizing c with
  | nil => exact List.Subset.refl _
  | cons event events ih => exact List.Subset.trans (c.derived_subset_step event w) (ih _)

/-- Two ratchets initialised as a pair hold unspent keys. -/
theorem Sound.start {secret : Block 32} {own : Secret} {ad : Block 64} {skip skip' : UInt32}
    {initiator : Ratchet} {ent ent' : Entropy}
    (h : Ratchet.initiate secret own.publicKey skip ad ent = .ok initiator ent')
    (entropy : Party → Entropy)
    (hd : Distinct ((start secret own.publicKey initiator (.respond secret own skip' ad)
      entropy).derived .first)) :
    (start secret own.publicKey initiator (.respond secret own skip' ad) entropy).Sound where
  unspent
    | .first => by
      obtain ⟨drawn, ent₁, -, h⟩ := bind_eq_ok_iff.mp h
      cases h
      have hagreed : Unspent [.agreed secret] fun | Slot.root => some secret | _ => none := by
        refine Unspent.agreed (a := .root) ?_
        intro i k hk
        cases i with
        | root => exact ⟨rfl, (Option.some.inj hk).symm⟩
        | _ => cases hk
      refine hagreed.derive_pair (a := .root) (b := .root) (c := .sending) rfl rfl rfl nofun hd ?_
      intro i k hk
      cases i with
      | root => exact .inr (.inl ⟨rfl, (Option.some.inj hk).symm⟩)
      | sending => exact .inr (.inr ⟨rfl, (Option.some.inj hk).symm⟩)
      | skipped id => cases Std.ExtTreeMap.getElem?_empty.symm.trans hk
      | _ => cases hk
    | .second => by
      refine Unspent.agreed (a := .root) ?_
      intro i k hk
      cases i with
      | root => exact ⟨rfl, (Option.some.inj hk).symm⟩
      | skipped id => cases Std.ExtTreeMap.getElem?_empty.symm.trans hk
      | _ => cases hk
  sealings := nofun
  accepted := nofun
  once := List.nodup_nil

namespace Sound

/-- What one party does leaves the keys of the other as they are. -/
theorem unspent_update (h : c.Sound) (hr : Unspent (c.derived who ++ made) (r.keyIn none))
    (w : Party) :
    Unspent (Function.update c.derived who (c.derived who ++ made) w)
      ((Function.update c.ratchet who r w).keyIn none) := by
  by_cases hw : w = who
  · subst hw
    rwa [Function.update_self, Function.update_self]
  · rw [Function.update_of_ne hw, Function.update_of_ne hw]
    exact h.unspent w

/-- What was sealed before stays recorded when a party derives more. -/
theorem sealings_update (h : c.Sound) {x : Sealing} (hx : x ∈ c.sealings) (who : Party)
    (made : List Derivation) :
    ∃ key, .cipher key ∈ Function.update c.derived who (c.derived who ++ made) x.party ∧
      x.key = (Derivation.cipher key).output := by
  obtain ⟨-, -, key, hkey, heq⟩ := h.sealings x hx
  exact ⟨key, c.derived_subset_update who made _ hkey, heq⟩

theorem accepted_update (h : c.Sound) {w : Party} {m : RatchetMessage} (hm : (w, m) ∈ c.accepted)
    (who : Party) (made : List Derivation) :
    ∃ x ∈ c.sealings, x.party = w.peer ∧ x.message = m ∧
      ∃ key, .cipher key ∈ Function.update c.derived who (c.derived who ++ made) w ∧
        x.key = (Derivation.cipher key).output := by
  obtain ⟨x, hx, hparty, hmessage, key, hkey, heq⟩ := h.accepted w m hm
  exact ⟨x, hx, hparty, hmessage, key, c.derived_subset_update who made _ hkey, heq⟩

theorem send (h : c.Sound) (who : Party) (plaintext : Bytes)
    (hd : Distinct ((c.step (.send who plaintext)).derived who)) :
    (c.step (.send who plaintext)).Sound := by
  have hunspent := (Unspent.alone_iff.mpr (h.unspent who)).encrypt plaintext
  cases hm : (c.ratchet who).encrypt plaintext with
  | ok m r =>
    simp only [step, hm, Function.update_self] at hd
    rw [endState_of_ok hm] at hunspent
    simp only [step, hm]
    exact {
      unspent := h.unspent_update (Unspent.alone_iff.mp (hunspent hd))
      sealings := fun x hx => by
        rcases List.mem_append.mp hx with hx | hx
        · obtain ⟨rfl, rfl, hdata, key, hkey, heq⟩ := Ratchet.of_mem_sealing hm hx
          dsimp only
          rw [Function.update_self, Function.update_self]
          exact ⟨List.mem_cons_self, hdata, key, List.mem_append_right _ hkey, heq⟩
        · refine ⟨?_, (h.sealings x hx).2.1, h.sealings_update hx _ _⟩
          exact c.sent_subset_update who m x.party (h.sealings x hx).1
      accepted := fun w m' hm' => by
        obtain ⟨x, hx, hrest⟩ := h.accepted_update hm' who (c.ratchet who).derivedNext
        exact ⟨x, List.mem_append_right _ hx, hrest⟩
      once := h.once }
  | error err r =>
    simp only [step, hm, Function.update_self] at hd
    rw [endState_of_error hm] at hunspent
    simp only [step, hm]
    exact {
      unspent := h.unspent_update (Unspent.alone_iff.mp (hunspent hd))
      sealings := fun x hx =>
        ⟨(h.sealings x hx).1, (h.sealings x hx).2.1, h.sealings_update hx _ _⟩
      accepted := fun w m hm => h.accepted_update hm _ _
      once := h.once }

/-- What is accepted was sent by the other party and was not accepted before: its key is used for
the first time, and it was sealed under no other. -/
theorem deliver_ok {m : RatchetMessage} (h : c.Sound) (hu : c.UnforgedAt (.deliver who m))
    {p : Bytes} {ent : Entropy}
    (hr : (c.ratchet who).decrypt m (c.entropy who) = .ok (p, r) ent)
    (hd : Distinct (c.derived who ++ (c.ratchet who).derivedFor m (c.entropy who))) :
    Unspent (c.derived who ++ (c.ratchet who).derivedFor m (c.entropy who)) (r.keyIn none) ∧
      m ∉ c.accepted.map Prod.snd ∧
      ∃ x ∈ c.sealings, x.party = who.peer ∧ x.message = m ∧
        ∃ key, .cipher key ∈ (c.ratchet who).derivedFor m (c.entropy who) ∧
          x.key = (Derivation.cipher key).output := by
  obtain ⟨hunspent, key, hopens, hmem, hnew⟩ :=
    (Unspent.alone_iff.mpr (h.unspent who)).decrypt hr hd
  obtain ⟨⟨x, hx, hcipher⟩, hall⟩ := hu key hopens
  have hsealed : ∀ x ∈ c.sealings, x.message.ciphertext = m.ciphertext →
      x.party = who.peer ∧ x.message = m := by
    intro x hx hcipher
    obtain ⟨hkey, hdata⟩ := hall x hx hcipher
    obtain ⟨-, ⟨ad, hvouched⟩, key', hmem', hkey'⟩ := h.sealings x hx
    refine ⟨Party.eq_peer_of_ne fun hparty => ?_, ?_⟩
    · rw [hparty] at hmem'
      have heq := hd _ (List.mem_append_left _ hmem') _ (List.mem_append_right _ hmem)
        (hkey'.symm.trans hkey)
      cases heq
      exact hnew hmem'
    · obtain ⟨-, hheader⟩ := Ratchet.vouched_injective (hvouched.symm.trans hdata)
      exact RatchetMessage.eq_of_header_eq hheader hcipher
  refine ⟨Unspent.alone_iff.mp hunspent, fun haccepted => ?_, x, hx, (hsealed x hx hcipher).1,
    (hsealed x hx hcipher).2, key, hmem, (hall x hx hcipher).1⟩
  obtain ⟨⟨w, _⟩, hbefore, rfl⟩ := List.mem_map.mp haccepted
  obtain ⟨x', hx', hparty', hmessage, key', hmem', hkey'⟩ := h.accepted w _ hbefore
  have hcipher' := congrArg RatchetMessage.ciphertext hmessage
  obtain ⟨hkey, -⟩ := hall x' hx' hcipher'
  obtain ⟨hpeer, -⟩ := hsealed x' hx' hcipher'
  have hw : w = who := by
    rw [← w.peer_peer, ← hparty', hpeer, Party.peer_peer]
  subst hw
  have heq := hd _ (List.mem_append_left _ hmem') _ (List.mem_append_right _ hmem)
    (hkey'.symm.trans hkey)
  cases heq
  exact hnew hmem'

theorem deliver {m : RatchetMessage} (h : c.Sound) (hu : c.UnforgedAt (.deliver who m))
    (hd : Distinct ((c.step (.deliver who m)).derived who)) :
    (c.step (.deliver who m)).Sound := by
  cases hr : (c.ratchet who).decrypt m (c.entropy who) with
  | ok a ent =>
    obtain ⟨p, r⟩ := a
    simp only [step, hr, Function.update_self] at hd
    obtain ⟨hunspent, hnew, x, hx, hparty, hmessage, key, hmem, hkey⟩ := h.deliver_ok hu hr hd
    simp only [step, hr]
    exact {
      unspent := h.unspent_update hunspent
      sealings := fun x hx =>
        ⟨(h.sealings x hx).1, (h.sealings x hx).2.1, h.sealings_update hx _ _⟩
      accepted := fun w m' hm' => by
        rcases List.mem_cons.mp hm' with hm' | hm'
        · cases hm'
          dsimp only
          rw [Function.update_self]
          exact ⟨x, hx, hparty, hmessage, key, List.mem_append_right _ hmem, hkey⟩
        · exact h.accepted_update hm' _ _
      once := List.nodup_cons.mpr ⟨hnew, h.once⟩ }
  | error err ent =>
    simp only [step, hr]
    exact { h with }

/-- Whatever happens, keys are used once and only what was sent is accepted. -/
theorem step (h : c.Sound) {event : Event} (hu : c.UnforgedAt event)
    (hd : ∀ w, Distinct ((c.step event).derived w)) : (c.step event).Sound := by
  cases event with
  | send who plaintext => exact h.send who plaintext (hd who)
  | deliver who m => exact h.deliver hu (hd who)

theorem run (h : c.Sound) {events : List Event} (hu : c.Unforged events)
    (hd : ∀ w, Distinct ((c.run events).derived w)) : (c.run events).Sound := by
  induction events generalizing c with
  | nil => exact h
  | cons event events ih =>
    have hstep : (c.step event).Sound :=
      h.step hu.1 fun w => (hd w).subset (derived_subset_run _ events w)
    exact ih hstep hu.2 hd

end Sound

/-- What is accepted was sent by the other party, byte for byte, and nothing is accepted twice. -/
theorem accepted_of_unforged {secret : Block 32} {own : Secret} {ad : Block 64}
    {skip skip' : UInt32} {initiator : Ratchet} {ent ent' : Entropy}
    (hstart : Ratchet.initiate secret own.publicKey skip ad ent = .ok initiator ent')
    (entropy : Party → Entropy) (events : List Event)
    (hrun : c = (start secret own.publicKey initiator (.respond secret own skip' ad)
      entropy).run events)
    (hdistinct : ∀ who, Distinct (c.derived who))
    (hunforged : (start secret own.publicKey initiator (.respond secret own skip' ad)
      entropy).Unforged events) :
    (∀ who m, (who, m) ∈ c.accepted → m ∈ c.sent who.peer) ∧
      (c.accepted.map Prod.snd).Nodup := by
  subst hrun
  have hsound := (Sound.start hstart entropy
    ((hdistinct .first).subset (derived_subset_run _ events _))).run hunforged hdistinct
  refine ⟨fun who m hm => ?_, hsound.once⟩
  obtain ⟨x, hx, hparty, hmessage, -⟩ := hsound.accepted who m hm
  rw [← hparty, ← hmessage]
  exact (hsound.sealings x hx).1

end Run

section Replay

/-- A suite that hides nothing and derives different keys from different ones, if they differ in
their first bytes. -/
@[reducible] def labelled : CipherSuite :=
  let half (label : UInt8) (salt input : Bytes) : Bytes :=
    label :: UInt8.ofNat salt.length :: (salt.take 15 ++ input.take 15)
  { CipherSuite.transparent with
    derive salt input _ n := Block.ofPrefix n (half 3 salt input ++ half 4 salt input) }

attribute [local instance] labelled

theorem labelled_opensUnderOneKey : OpensUnderOneKey := CipherSuite.transparent_opensUnderOneKey

/-- Two ratchets initialised as a pair. -/
def paired : Exposed :=
  let responder := Ratchet.respond (Block.zero 32) (Block.zero 32) 2 (Block.zero 64)
  match Ratchet.initiate (Block.zero 32) (Secret.publicKey (Block.zero 32)) 2 (Block.zero 64)
      .counting with
  | .ok initiator entropy =>
    start (Block.zero 32) (Secret.publicKey (Block.zero 32)) initiator responder fun _ => entropy
  | .error _ entropy =>
    start (Block.zero 32) (Secret.publicKey (Block.zero 32)) responder responder fun _ => entropy

/-- The last message that a party sent arrives at the other one. -/
def arrival (events : List Event) (who : Party) : List Event :=
  (((paired.run events).sent who).take 1).map (.deliver who.peer)

/-- The first message arrives twice, and again after both parties have taken up new ratchet keys. -/
def replays : List Event :=
  let first : List Event := [.send .first [1]]
  let answered := first ++ arrival first .first ++ arrival first .first ++ [.send .second [2]]
  let resumed := answered ++ arrival answered .second ++ [.send .first [3]]
  resumed ++ arrival resumed .first ++ arrival first .first

/-- Of eight things that happen three are acceptances, of what was sent and of each message once. -/
theorem accepted_of_replays :
    (paired.run replays).accepted.length = 3 ∧
      (∀ who m, (who, m) ∈ (paired.run replays).accepted → m ∈ (paired.run replays).sent who.peer) ∧
      ((paired.run replays).accepted.map Prod.snd).Nodup := by
  obtain ⟨initiator, entropy, hinitiate⟩ : ∃ initiator entropy, Ratchet.initiate (Block.zero 32)
      (Secret.publicKey (Block.zero 32)) 2 (Block.zero 64) .counting = .ok initiator entropy :=
    ⟨_, _, rfl⟩
  have hstart : paired = start (Block.zero 32) (Secret.publicKey (Block.zero 32)) initiator
      (Ratchet.respond (Block.zero 32) (Block.zero 32) 2 (Block.zero 64)) fun _ => entropy := by
    unfold paired
    rw [hinitiate]
  have hdistinct : ∀ w, Distinct ((paired.run replays).derived w) := by
    intro w
    cases w <;> decide +kernel
  have hunforged : paired.Unforged replays := by decide +kernel
  refine ⟨by decide +kernel, ?_⟩
  exact accepted_of_unforged hinitiate (fun _ => entropy) replays
    (congrArg (fun c => c.run replays) hstart) hdistinct (hstart ▸ hunforged)

end Replay

end Exposed

end MultiDevice
