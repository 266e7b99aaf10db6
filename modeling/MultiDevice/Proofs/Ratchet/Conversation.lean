import MultiDevice.Proofs.Draw
import MultiDevice.Proofs.Ratchet.Ladder
import Mathlib.Logic.Function.Basic

/-!
# Conversations

Two parties encrypt in any order. Their messages arrive in any order, late or never, and each is
read at most once. Whatever happened before, a message that is within reach is read.

## Main definitions

* `Conversation`: two ratchets, what was sent, and what was read
* `Conversation.Event`, `Conversation.run`: what happens, one thing after another
* `Conversation.InStep`: the two ratchets are in step, and what was sent is what they wrote
* `Entropy.DrawsNew`: the keys drawn are new points

## Main results

* `Conversation.InStep.step`: whatever happens keeps the parties in step
* `Conversation.exists_decrypt_of_withinReach`: a message within reach is read
-/

namespace MultiDevice

/-- The two parties. -/
inductive Party where
  /-- One party; in a conversation it is the one that sends first. -/
  | first
  /-- The other party. -/
  | second
  deriving DecidableEq, Repr

namespace Party

/-- The other party. -/
def peer : Party → Party
  | first => second
  | second => first

@[simp] theorem peer_peer (w : Party) : w.peer.peer = w := by cases w <;> rfl

theorem eq_peer_of_ne {v w : Party} (h : v ≠ w) : v = w.peer := by
  cases v <;> cases w <;> simp_all [peer]

@[simp] theorem peer_ne (w : Party) : w.peer ≠ w := by cases w <;> simp [peer]

/-- What holds of one party and of the other holds of both. -/
theorem forall_of {p : Party → Prop} (who : Party) (h : p who) (h' : p who.peer) (w : Party) :
    p w := by
  by_cases hw : w = who
  · exact hw ▸ h
  · exact eq_peer_of_ne hw ▸ h'

end Party

namespace Entropy

variable [CipherSuite]

/-- The public half of the `k`-th secret drawn. -/
def key (e : Entropy) (k : Nat) : PublicKey := Secret.publicKey (e.supply k 32)

/-- The keys drawn up to the number `stop` are different points, and other points than `known`. -/
structure DrawsNew (e : Entropy) (known : PublicKey) (stop : Nat) : Prop where
  known : ∀ k, e.drawn ≤ k → k < stop → ¬ known.SamePoint (e.key k)
  distinct : ∀ j k, e.drawn ≤ j → j < k → k < stop → ¬ (e.key j).SamePoint (e.key k)

theorem DrawsNew.mono {e : Entropy} {known : PublicKey} {stop stop' : Nat}
    (h : e.DrawsNew known stop) (hle : stop' ≤ stop) : e.DrawsNew known stop' :=
  ⟨fun k hk hs => h.known k hk (Nat.lt_of_lt_of_le hs hle),
    fun j k hj hjk hs => h.distinct j k hj hjk (Nat.lt_of_lt_of_le hs hle)⟩

/-- A key that was known before, or was drawn from a source since. -/
def Supplied (e : Entropy) (known : PublicKey) (stop : Nat) (k : PublicKey) : Prop :=
  k = known ∨ ∃ n, e.drawn ≤ n ∧ n < stop ∧ k = e.key n

theorem Supplied.mono {e : Entropy} {known k : PublicKey} {stop stop' : Nat}
    (h : e.Supplied known stop k) (hle : stop ≤ stop') : e.Supplied known stop' k := by
  rcases h with h | ⟨n, hn, hlt, h⟩
  · exact .inl h
  · exact .inr ⟨n, hn, Nat.lt_of_lt_of_le hlt hle, h⟩

theorem supplied_key {e : Entropy} (known : PublicKey) {n stop : Nat} (hn : e.drawn ≤ n)
    (hlt : n < stop) : e.Supplied known stop (e.key n) := .inr ⟨n, hn, hlt, rfl⟩

/-- The next key drawn is another point than those before. -/
theorem DrawsNew.not_samePoint {e : Entropy} {known k : PublicKey} {n stop : Nat}
    (h : e.DrawsNew known stop) (hn : e.drawn ≤ n) (hlt : n < stop) (hk : e.Supplied known n k) :
    ¬ k.SamePoint (e.key n) := by
  rcases hk with rfl | ⟨j, hj, hjn, rfl⟩
  · exact h.known n hn hlt
  · exact h.distinct j n hj hjn hlt

end Entropy

/-- A name is the name of one of several messages. -/
def Named (ms : List RatchetMessage) (id : SkippedId) : Prop := ∃ m ∈ ms, m.id = id

theorem named_nil : Named [] = fun _ => False := by
  funext id
  simp [Named]

theorem named_cons (m : RatchetMessage) (ms : List RatchetMessage) :
    Named (m :: ms) = fun id => Named ms id ∨ id = m.id := by
  funext id
  simp [Named, or_comm, eq_comm]

/-- Two ratchets, the messages sent with their plaintexts, and the messages read. -/
structure Conversation where
  /-- The state of each party. -/
  ratchet : Party → Ratchet
  /-- Where both draw from. -/
  entropy : Entropy
  /-- What each party sent. -/
  sent : Party → List (Bytes × RatchetMessage)
  /-- What each party read. -/
  read : Party → List RatchetMessage

namespace Conversation

/-- What can happen: a party encrypts, or a message arrives. -/
inductive Event where
  /-- A party encrypts. -/
  | send (who : Party) (plaintext : Bytes)
  /-- A message arrives. -/
  | deliver (who : Party) (m : RatchetMessage)

/-- A message that the other party sent and that was not read. -/
def InFlight (c : Conversation) (who : Party) (m : RatchetMessage) : Prop :=
  m ∈ (c.sent who.peer).map Prod.snd ∧ m ∉ c.read who

instance (c : Conversation) (who : Party) (m : RatchetMessage) : Decidable (c.InFlight who m) :=
  inferInstanceAs (Decidable (_ ∧ _))

/-- Before anything was sent. -/
def start (initiator responder : Ratchet) (entropy : Entropy) : Conversation where
  ratchet
    | .first => initiator
    | .second => responder
  entropy
  sent _ := []
  read _ := []

section Run

variable [CipherSuite]

/-- The conversation after one event. A message that cannot be read stays in flight. -/
def step (c : Conversation) : Event → Conversation
  | .send who plaintext =>
    match (c.ratchet who).encrypt plaintext with
    | .ok m r =>
      { c with
        ratchet := Function.update c.ratchet who r
        sent := Function.update c.sent who ((plaintext, m) :: c.sent who) }
    | .error _ r => { c with ratchet := Function.update c.ratchet who r }
  | .deliver who m =>
    if c.InFlight who m then
      match (c.ratchet who).decrypt m c.entropy with
      | .ok (_, r) entropy =>
        { c with
          ratchet := Function.update c.ratchet who r
          entropy
          read := Function.update c.read who (m :: c.read who) }
      | .error _ entropy => { c with entropy }
    else c

/-- The conversation after several events. -/
def run (c : Conversation) (events : List Event) : Conversation := events.foldl step c

/-- The parties are in step, what was sent is what they wrote, and their keys were drawn from a
source that has been used since, or known before. -/
structure InStep (ad : Block 64) (e₀ : Entropy) (known : PublicKey) (c : Conversation)
    (flow : Party → Flow) : Prop where
  linked : ∀ w, Linked ad (c.ratchet w) (c.ratchet w.peer) (flow w) (flow w.peer)
    (Named (c.read w.peer)) (Named (c.read w))
  sent : ∀ w p m, (p, m) ∈ c.sent w → (flow w).Carries ad p m
  read : ∀ w, ∀ m ∈ c.read w, m ∈ (c.sent w.peer).map Prod.snd
  keys : ∀ w, ∀ k ∈ (c.ratchet w).publicKey :: (flow w).keys, e₀.Supplied known c.entropy.drawn k
  entropy : Entropy.Later e₀ c.entropy

/-- Two parties in step are in step from either side. -/
theorem linked_of_side {ad : Block 64} {ratchet : Party → Ratchet} {flow : Party → Flow}
    {read : Party → List RatchetMessage} (who : Party)
    (h : Linked ad (ratchet who) (ratchet who.peer) (flow who) (flow who.peer)
      (Named (read who.peer)) (Named (read who))) (w : Party) :
    Linked ad (ratchet w) (ratchet w.peer) (flow w) (flow w.peer) (Named (read w.peer))
      (Named (read w)) := by
  revert w
  refine Party.forall_of who h ?_
  rw [Party.peer_peer]
  exact h.symm

variable {ad : Block 64} {e₀ : Entropy} {known : PublicKey} {c : Conversation}
  {flow : Party → Flow} {who : Party} {p : Bytes} {m : RatchetMessage}

/-- What is in flight was not read under any name. -/
theorem InStep.not_named (h : InStep ad e₀ known c flow) (hm : c.InFlight who m) :
    ¬ Named (c.read who) m.id := by
  rintro ⟨m', hm', hid⟩
  obtain ⟨⟨p', m''⟩, hs', heq⟩ := List.mem_map.mp (h.read who m' hm')
  obtain ⟨⟨p, m₀⟩, hs, heq₀⟩ := List.mem_map.mp hm.1
  cases heq
  cases heq₀
  have heq := (h.linked who.peer).forth.fits.eq_of_carries (h.sent _ _ _ hs') (h.sent _ _ _ hs) hid
  rw [heq] at hm'
  exact hm.2 hm'

/-- Encrypting keeps the parties in step. -/
theorem InStep.send (h : InStep ad e₀ known c flow) (who : Party) (p : Bytes) :
    ∃ flow', InStep ad e₀ known (c.step (.send who p)) flow' := by
  have hsupplied : ∀ (sending : Option Chain) (f : Flow), f.keys = (flow who).keys → ∀ w,
      ∀ k ∈ (Function.update c.ratchet who { c.ratchet who with sending } w).publicKey ::
        (Function.update flow who f w).keys, e₀.Supplied known c.entropy.drawn k := by
    intro sending f hf
    refine Party.forall_of who (fun k hk => ?_) fun k hk => ?_
    · rw [Function.update_self, Function.update_self, hf] at hk
      exact h.keys who k hk
    · simp only [Function.update_of_ne (Party.peer_ne who)] at hk
      exact h.keys who.peer k hk
  rcases (h.linked who).encrypt p with ⟨err, sending, he, h'⟩ | ⟨m, sending, he, hm, -, h'⟩
  · have hkeys := hsupplied sending (flow who) rfl
    rw [Function.update_eq_self] at hkeys
    refine ⟨flow, ?_, ?_, ?_, ?_, ?_⟩
    all_goals simp only [step, he]
    · refine linked_of_side who ?_
      simpa only [Function.update_self, Function.update_of_ne (Party.peer_ne who)] using h'
    · exact h.sent
    · exact h.read
    · exact hkeys
    · exact h.entropy
  · refine ⟨Function.update flow who ((flow who).push p), ?_, ?_, ?_, ?_, ?_⟩
    all_goals simp only [step, he]
    · refine linked_of_side who ?_
      simpa only [Function.update_self, Function.update_of_ne (Party.peer_ne who)] using h'
    · refine Party.forall_of who (fun p' m' hs => ?_) fun p' m' hs => ?_
      · rw [Function.update_self] at hs ⊢
        rcases List.mem_cons.mp hs with hs | hs
        · cases hs
          exact hm
        · exact (h.sent who p' m' hs).push p
      · rw [Function.update_of_ne (Party.peer_ne who)] at hs ⊢
        exact h.sent who.peer p' m' hs
    · intro w m' hm'
      have hr := h.read w m' hm'
      by_cases hw : w.peer = who
      · rw [hw, Function.update_self, List.map_cons]
        exact List.mem_cons_of_mem _ (hw ▸ hr)
      · rw [Function.update_of_ne hw]
        exact hr
    · exact hsupplied sending ((flow who).push p) (Flow.keys_push _ _)
    · exact h.entropy

/-- What a party sends is new. -/
theorem InStep.notMem_sent (h : InStep ad e₀ known c flow) {r : Ratchet}
    (he : (c.ratchet who).encrypt p = .ok m r) : m ∉ (c.sent who).map Prod.snd := by
  intro hm
  obtain ⟨⟨p', m'⟩, hs, rfl⟩ := List.mem_map.mp hm
  rcases (h.linked who).encrypt p with ⟨err, sending, he', -⟩ | ⟨m, sending, he', -, hnew, -⟩
  · cases he.symm.trans he'
  · cases he.symm.trans he'
    exact hnew p' m' (h.sent who p' m' hs) rfl

/-- A message within reach is read, in any state in which the parties are in step. -/
theorem InStep.exists_decrypt (hc : AgreementCommutes) (ho : OpensSealed)
    (hrefuses : ∀ n, e₀.refuses n = false) (h : InStep ad e₀ known c flow)
    (hm : (p, m) ∈ c.sent who.peer) (hunread : m ∉ c.read who)
    (hreach : (c.ratchet who).WithinReach m) :
    ∃ r e, (c.ratchet who).decrypt m c.entropy = .ok (p, r) e ∧
      ((e = c.entropy.next → e₀.DrawsNew known e.drawn) →
        ∃ fx fy, Linked ad (c.ratchet who.peer) r fx fy
          (Named (m :: c.read who)) (Named (c.read who.peer)) ∧
          fx.epochs = (flow who.peer).epochs ∧ (∀ e ∈ (flow who).epochs, e ∈ fy.epochs) ∧
          (e = c.entropy ∧ r.publicKey = (c.ratchet who).publicKey ∧ fy.keys = (flow who).keys ∨
            e = c.entropy.next ∧ r.publicKey = e₀.key c.entropy.drawn ∧
              fy.keys = (flow who).keys ++ [e₀.key c.entropy.drawn])) := by
  have hdraw := Entropy.block_eq 32 (e := c.entropy) (by rw [h.entropy.refuses, hrefuses])
  have hown : Secret.publicKey (c.entropy.supply c.entropy.drawn 32) =
      e₀.key c.entropy.drawn := by
    rw [h.entropy.supply]
    rfl
  have hl := h.linked who.peer
  rw [Party.peer_peer] at hl
  have hflight : c.InFlight who m := ⟨List.mem_map_of_mem hm, hunread⟩
  obtain ⟨r, e, hd, hnext⟩ :=
    hl.decrypt hc ho (h.sent _ _ _ hm) (h.not_named hflight) hreach hdraw
  refine ⟨r, e, hd, fun hnew => ?_⟩
  rw [hown] at hnext
  rw [named_cons]
  refine hnext fun he k hk => ?_
  have hn := hnew he
  have hlt : c.entropy.drawn < e.drawn := by
    rw [he]
    exact Nat.lt_succ_self _
  exact hn.not_samePoint h.entropy.drawn hlt (h.keys who k hk)

/-- After a message was read the parties are in step. -/
theorem InStep.reads (h : InStep ad e₀ known c flow) {r : Ratchet} {e : Entropy} {fx fy : Flow}
    (hs : (p, m) ∈ c.sent who.peer) (hlater : Entropy.Later c.entropy e)
    (h' : Linked ad (c.ratchet who.peer) r fx fy (Named (m :: c.read who))
      (Named (c.read who.peer)))
    (hfx : fx.epochs = (flow who.peer).epochs) (hfy : ∀ e ∈ (flow who).epochs, e ∈ fy.epochs)
    (hkeys : ∀ k ∈ r.publicKey :: fy.keys, e₀.Supplied known e.drawn k) :
    InStep ad e₀ known
      { c with
        ratchet := Function.update c.ratchet who r
        entropy := e
        read := Function.update c.read who (m :: c.read who) }
      (Function.update (Function.update flow who.peer fx) who fy) := by
  have hne := Party.peer_ne who
  refine ⟨?_, ?_, ?_, ?_, h.entropy.trans hlater⟩
  · refine linked_of_side who ?_
    simp only [Function.update_self, Function.update_of_ne hne]
    exact h'.symm
  · refine Party.forall_of who (fun p' m' hs' => ?_) fun p' m' hs' => ?_
    · rw [Function.update_self]
      exact (h.sent who p' m' hs').of_epochs hfy
    · rw [Function.update_of_ne hne, Function.update_self]
      exact (h.sent who.peer p' m' hs').of_epochs fun e he => by rw [hfx]; exact he
  · refine Party.forall_of who (fun m' hr => ?_) fun m' hr => ?_
    · simp only [Function.update_self] at hr
      rcases List.mem_cons.mp hr with rfl | hr
      · exact List.mem_map_of_mem hs
      · exact h.read who m' hr
    · simp only [Function.update_of_ne hne] at hr
      exact h.read who.peer m' hr
  · refine Party.forall_of who (fun k hk => ?_) fun k hk => ?_
    · simp only [Function.update_self] at hk
      exact hkeys k hk
    · simp only [Function.update_of_ne hne, Function.update_self, Flow.keys, hfx] at hk
      exact (h.keys who.peer k hk).mono hlater.drawn

/-- A delivery keeps the parties in step. -/
theorem InStep.deliver (hc : AgreementCommutes) (ho : OpensSealed)
    (hrefuses : ∀ n, e₀.refuses n = false) (h : InStep ad e₀ known c flow) (who : Party)
    (m : RatchetMessage)
    (hnew : e₀.DrawsNew known (c.step (.deliver who m)).entropy.drawn) :
    ∃ flow', InStep ad e₀ known (c.step (.deliver who m)) flow' := by
  by_cases hm : c.InFlight who m
  · cases hd : (c.ratchet who).decrypt m c.entropy with
    | error err e =>
      refine ⟨flow, ?_⟩
      simp only [step, if_pos hm, hd]
      have hlater := (Ratchet.decrypt_advances _ m).of_error hd
      exact ⟨h.linked, h.sent, h.read, fun w k hk => (h.keys w k hk).mono hlater.drawn,
        h.entropy.trans hlater⟩
    | ok a e =>
      have hlater := (Ratchet.decrypt_advances _ m).of_ok hd
      have hreach := Ratchet.withinReach_of_decrypt hd (h.linked who).back.reads.receiving_eq_none
      obtain ⟨⟨p, m'⟩, hs, rfl⟩ := List.mem_map.mp hm.1
      obtain ⟨r, e', hd', hnext⟩ := h.exists_decrypt hc ho hrefuses hs hm.2 hreach
      rw [hd'] at hd
      cases hd
      simp only [step, if_pos hm, hd'] at hnew ⊢
      obtain ⟨fx, fy, h', hfx, hfy, hkeys⟩ := hnext fun _ => hnew
      refine ⟨_, h.reads hs hlater h' hfx hfy fun k hk => ?_⟩
      rcases hkeys with ⟨-, hkey, hfy'⟩ | ⟨he, hkey, hfy'⟩
      · rw [hkey, hfy'] at hk
        exact (h.keys who k hk).mono hlater.drawn
      · have hlt : c.entropy.drawn < e.drawn := by
          rw [he]
          exact Nat.lt_succ_self _
        have hown := Entropy.supplied_key known h.entropy.drawn hlt
        rw [hkey, hfy', ← List.cons_append, List.mem_append, List.mem_cons] at hk
        rcases hk with (rfl | hk) | hk
        · exact hown
        · exact (h.keys who k (List.mem_cons_of_mem _ hk)).mono hlater.drawn
        · exact (List.mem_singleton.mp hk).symm ▸ hown
  · refine ⟨flow, ?_⟩
    simp only [step, if_neg hm]
    exact h

theorem drawn_le_step (c : Conversation) (event : Event) :
    c.entropy.drawn ≤ (c.step event).entropy.drawn := by
  cases event with
  | send who p =>
    cases he : (c.ratchet who).encrypt p with
    | ok m r => simp only [step, he, Nat.le_refl]
    | error err r => simp only [step, he, Nat.le_refl]
  | deliver who m =>
    by_cases hm : c.InFlight who m
    · have hlater := Ratchet.decrypt_advances (c.ratchet who) m
      cases hd : (c.ratchet who).decrypt m c.entropy with
      | ok a e =>
        simp only [step, if_pos hm, hd]
        exact (hlater.of_ok hd).drawn
      | error err e =>
        simp only [step, if_pos hm, hd]
        exact (hlater.of_error hd).drawn
    · simp only [step, if_neg hm, Nat.le_refl]

theorem drawn_le_run (c : Conversation) (events : List Event) :
    c.entropy.drawn ≤ (c.run events).entropy.drawn := by
  induction events generalizing c with
  | nil => exact Nat.le_refl _
  | cons event events ih => exact Nat.le_trans (c.drawn_le_step event) (ih _)

/-- Whatever happens keeps the parties in step. -/
theorem InStep.step (hc : AgreementCommutes) (ho : OpensSealed)
    (hrefuses : ∀ n, e₀.refuses n = false) (h : InStep ad e₀ known c flow) (event : Event)
    (hnew : e₀.DrawsNew known (c.step event).entropy.drawn) :
    ∃ flow', InStep ad e₀ known (c.step event) flow' := by
  cases event with
  | send who p => exact h.send who p
  | deliver who m => exact h.deliver hc ho hrefuses who m hnew

/-- Whatever happens, in whatever order, keeps the parties in step. -/
theorem InStep.run (hc : AgreementCommutes) (ho : OpensSealed)
    (hrefuses : ∀ n, e₀.refuses n = false) (events : List Event) (h : InStep ad e₀ known c flow)
    (hnew : e₀.DrawsNew known (c.run events).entropy.drawn) :
    ∃ flow', InStep ad e₀ known (c.run events) flow' := by
  -- Induction on the events; what is drawn by the end bounds what is drawn by the first one.
  induction events generalizing c flow with
  | nil => exact ⟨flow, h⟩
  | cons event events ih =>
    obtain ⟨flow', h'⟩ := h.step hc ho hrefuses event (hnew.mono (drawn_le_run _ events))
    exact ih h' hnew

/-- The parties are in step at the start. -/
theorem inStep_start (hc : AgreementCommutes) {secret : Block 32} {own : Secret}
    {skip : UInt32} (skip' : UInt32) {initiator : Ratchet} {e₁ : Entropy}
    (h : Ratchet.initiate secret own.publicKey skip ad e₀ = .ok initiator e₁) :
    ∃ flow, InStep ad e₀ own.publicKey
      (start initiator (Ratchet.respond secret own skip' ad) e₁) flow := by
  obtain ⟨e, hkey, -, hl⟩ := linked_of_initiate hc skip' h
  obtain ⟨drawn, t, hdraw, h'⟩ := bind_eq_ok_iff.mp h
  obtain ⟨hdrawn, ht⟩ := Entropy.eq_of_block hdraw
  have hfirst : e₀.Supplied own.publicKey e₁.drawn initiator.publicKey := by
    cases h'
    rw [ht]
    refine .inr ⟨_, Nat.le_refl _, Nat.lt_succ_self _, ?_⟩
    rw [Ratchet.publicKey, hdrawn]
    rfl
  let flow : Party → Flow
    | .first => Flow.start.opened e
    | .second => Flow.start
  refine ⟨flow, ?_, ?_, ?_, ?_, (Ratchet.initiate_advances _ _ _ _).of_ok h⟩
  · apply linked_of_side .first
    rw [← named_nil] at hl
    exact hl
  · exact fun _ _ _ hs => absurd hs List.not_mem_nil
  · exact fun _ _ hr => absurd hr List.not_mem_nil
  · intro w k hk
    cases w with
    | first =>
      have hk : k ∈ [initiator.publicKey, e.key] := hk
      rw [hkey] at hk
      rcases List.mem_cons.mp hk with rfl | hk
      · exact hfirst
      · exact (List.mem_singleton.mp hk).symm ▸ hfirst
    | second => exact .inl (List.mem_singleton.mp hk)

/-- Double ratchets are reliable. However two parties encrypt, and whatever of it arrives in
whatever order, a message that was sent and not read decrypts to its plaintext if it is within
reach. -/
theorem exists_decrypt_of_withinReach (hc : AgreementCommutes) (ho : OpensSealed)
    {secret : Block 32} {own : Secret} {skip skip' : UInt32} {initiator : Ratchet}
    {e₁ : Entropy}
    (hstart : Ratchet.initiate secret own.publicKey skip ad e₀ = .ok initiator e₁)
    (hrefuses : ∀ n, e₀.refuses n = false) (events : List Event)
    (hrun : c = (start initiator (Ratchet.respond secret own skip' ad) e₁).run events)
    (hnew : e₀.DrawsNew own.publicKey c.entropy.drawn)
    (hm : (p, m) ∈ c.sent who.peer) (hunread : m ∉ c.read who)
    (hreach : (c.ratchet who).WithinReach m) :
    ∃ r e, (c.ratchet who).decrypt m c.entropy = .ok (p, r) e := by
  obtain ⟨flow₀, h₀⟩ := inStep_start hc skip' hstart
  obtain ⟨flow, h⟩ := h₀.run hc ho hrefuses events (by rw [← hrun]; exact hnew)
  rw [← hrun] at h
  obtain ⟨r, e, hd, -⟩ := h.exists_decrypt hc ho hrefuses hm hunread hreach
  exact ⟨r, e, hd⟩

end Run

section Overtaken

attribute [local instance] CipherSuite.transparent

/-- Two ratchets made from zeros. -/
def fresh : Conversation :=
  let responder := Ratchet.respond (Block.zero 32) (Block.zero 32) 2 (Block.zero 64)
  match Ratchet.initiate (Block.zero 32) (Secret.publicKey (Block.zero 32)) 2 (Block.zero 64)
      .counting with
  | .ok initiator entropy => start initiator responder entropy
  | .error _ entropy => start responder responder entropy

/-- The initiator sends two messages, and the second arrives. -/
def overtaking : List Event :=
  let sends : List Event := [.send .first [1], .send .first [2]]
  sends ++ (((fresh.run sends).sent .first).take 1).map fun s => .deliver .second s.2

/-- The message that was overtaken. -/
def overtaken : RatchetMessage :=
  match (fresh.ratchet .first).encrypt [1] with
  | .ok m _ => m
  | .error _ r => { header := { ratchetKey := r.publicKey, previousLength := 0, number := 0 }
                    ciphertext := [] }

/-- The first of two messages is read although the second arrived before it. -/
theorem exists_decrypt_overtaken :
    ([1], overtaken) ∈ (fresh.run overtaking).sent .first ∧
      ∃ r e, ((fresh.run overtaking).ratchet .second).decrypt overtaken
        (fresh.run overtaking).entropy = .ok ([1], r) e := by
  have hm : ([1], overtaken) ∈ (fresh.run overtaking).sent (Party.peer .second) := by
    decide +kernel
  obtain ⟨initiator, e₁, hinitiate⟩ : ∃ initiator e₁, Ratchet.initiate (Block.zero 32)
      (Secret.publicKey (Block.zero 32)) 2 (Block.zero 64) .counting = .ok initiator e₁ :=
    ⟨_, _, rfl⟩
  have hstart : fresh = start initiator
      (Ratchet.respond (Block.zero 32) (Block.zero 32) 2 (Block.zero 64)) e₁ := by
    unfold fresh
    rw [hinitiate]
  have hnew : Entropy.counting.DrawsNew (Secret.publicKey (Block.zero 32))
      (fresh.run overtaking).entropy.drawn := by
    have hstop : (fresh.run overtaking).entropy.drawn = 2 := by decide +kernel
    have hknown : ∀ k < 2,
        ¬ (Secret.publicKey (Block.zero 32)).SamePoint (Entropy.counting.key k) := by
      decide +kernel
    have hdistinct : ∀ k < 2, ∀ j < k,
        ¬ (Entropy.counting.key j).SamePoint (Entropy.counting.key k) := by
      decide +kernel
    rw [hstop]
    exact ⟨fun k _ hk => hknown k hk, fun j k _ hjk hk => hdistinct k hk j hjk⟩
  have hread : overtaken ∉ (fresh.run overtaking).read .second := by decide +kernel
  have hreach : overtaken.id ∈ ((fresh.run overtaking).ratchet .second).skipped := by
    decide +kernel
  refine ⟨by decide +kernel, ?_⟩
  exact exists_decrypt_of_withinReach CipherSuite.transparent_agreementCommutes
    CipherSuite.transparent_opensSealed hinitiate (fun _ => rfl) overtaking
    (congrArg (fun c => c.run overtaking) hstart) hnew hm hread (.inl hreach)

end Overtaken

end Conversation

end MultiDevice
