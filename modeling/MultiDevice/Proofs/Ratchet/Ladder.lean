import MultiDevice.Proofs.Ratchet.Reader

/-!
# Two ratchets in step

Of two parties one leads: it sends on a ratchet key that the other has not taken up, and the root
key that the other would derive from it is its own. Reading a message on that key makes the other
party the leader.

## Main definitions

* `Strand`: a writer and a reader of one flow
* `Leads`, `Linked`: one party leads, and two parties read what the other writes

## Main results

* `linked_of_initiate`: the two states to start from are in step
* `Linked.encrypt`, `Linked.decrypt`: what the parties do keeps them in step
-/

namespace MultiDevice

variable [CipherSuite]

/-- One ratchet writes a flow, and another reads it and has read the messages of some names. -/
structure Strand (ad : Block 64) (f : Flow) (writer reader : Ratchet) (read : SkippedId → Prop) :
    Prop where
  fits : f.Fits
  writes : Writes f writer
  reads : Reads ad f reader read

/-- The party `x` sends on a ratchet key that the party `y` has not taken up. -/
structure Leads (x y : Ratchet) (fx fy : Flow) : Prop where
  unopened : fy.ahead = none
  remote : x.remote = some y.publicKey
  ahead : ∃ e, fx.ahead = some e ∧
    Ratchet.deriveChain y.rootKey (y.secret.agree e.key) = (x.rootKey, e.chainKey) ∧
    e.previousLength.toNat = fx.followed.elim 0 Epoch.size ∧
    ∀ k, y.remote = some k → ¬ k.SamePoint e.key

/-- Two parties read what the other writes, and one of them leads. -/
structure Linked (ad : Block 64) (x y : Ratchet) (fx fy : Flow) (gx gy : SkippedId → Prop) :
    Prop where
  forth : Strand ad fx x y gx
  back : Strand ad fy y x gy
  turn : Leads x y fx fy ∨ Leads y x fy fx

variable {ad : Block 64} {x y : Ratchet} {fx fy : Flow} {gx gy : SkippedId → Prop}

/-- The initiator leads at the start. -/
theorem linked_of_initiate (hc : AgreementCommutes) {secret : Block 32} {own : Secret}
    {skipX : UInt32} (skipY : UInt32) {ent ent' : Entropy}
    (h : Ratchet.initiate secret own.publicKey skipX ad ent = .ok x ent') :
    ∃ e, e.key = x.publicKey ∧ e.plaintexts = [] ∧
      Linked ad x (Ratchet.respond secret own skipY ad) (Flow.start.opened e) Flow.start
        (fun _ => False) fun _ => False := by
  unfold Ratchet.initiate at h
  obtain ⟨drawn, t, -, h⟩ := bind_eq_ok_iff.mp h
  cases h
  refine ⟨⟨drawn.publicKey, (Ratchet.deriveChain secret (drawn.agree own.publicKey)).2, 0, []⟩,
    rfl, rfl, ⟨?_, ?_, ?_⟩, ⟨Flow.Fits.start, Writes.start rfl, ?_⟩, .inl ?_⟩
  · exact Flow.Fits.start.opened rfl rfl fun k hk => absurd hk List.not_mem_nil
  · exact Writes.opened Flow.start rfl rfl rfl rfl
  · refine Reads.opened ?_ _
    exact Reads.start rfl rfl rfl
  · exact Reads.start rfl rfl rfl
  · refine ⟨rfl, rfl, _, rfl, ?_, rfl, fun k hk => (nomatch hk)⟩
    change Ratchet.deriveChain secret (own.agree drawn.publicKey) = _
    rw [hc own drawn]
    rfl

namespace Linked

theorem symm (h : Linked ad x y fx fy gx gy) : Linked ad y x fy fx gy gx :=
  ⟨h.back, h.forth, h.turn.symm⟩

/-- The writer of an epoch ahead is the leader. -/
theorem leads_of_ahead (h : Linked ad x y fx fy gx gy) {e : Epoch} (ha : fx.ahead = some e) :
    Leads x y fx fy := by
  refine h.turn.resolve_right fun ht => ?_
  have hn := ht.unopened
  rw [ha] at hn
  cases hn

/-- What one party sends keeps the parties in step. When it cannot send, nothing changes but its
chain. -/
theorem encrypt (h : Linked ad x y fx fy gx gy) (p : Bytes) :
    (∃ err sending, x.encrypt p = .error err { x with sending } ∧
      Linked ad { x with sending } y fx fy gx gy) ∨
    ∃ m sending, x.encrypt p = .ok m { x with sending } ∧ (fx.push p).Carries ad p m ∧
      (∀ p' m', fx.Carries ad p' m' → m'.id ≠ m.id) ∧
      Linked ad { x with sending } y (fx.push p) fy gx gy := by
  have hx := h.back.reads
  rcases h.forth.writes.encrypt hx.associatedData h.forth.fits p with
    ⟨err, sending, he, hw⟩ | ⟨e, sending, hl, hroom, he, hw⟩
  · refine .inl ⟨err, sending, he, ⟨h.forth.fits, hw, h.forth.reads⟩,
      ⟨h.back.fits, h.back.writes, hx.associatedData, hx.receiving, hx.remote, hx.skipped, hx.past⟩,
      ?_⟩
    rcases h.turn with ht | ht
    · exact .inl ⟨ht.unopened, ht.remote, ht.ahead⟩
    · exact .inr ⟨ht.unopened, ht.remote, ht.ahead⟩
  · refine .inr ⟨_, sending, he, Flow.carries_push hl p,
      fun p' m' hm => h.forth.fits.id_ne_of_carries hl hroom hm, ⟨?_, hw, ?_⟩,
      ⟨h.back.fits, h.back.writes, hx.associatedData, hx.receiving, hx.remote, hx.skipped, hx.past⟩,
      ?_⟩
    · refine h.forth.fits.push (fun e' he' => ?_) p
      rw [hl] at he'
      cases he'
      exact hroom
    · exact h.forth.reads.push h.forth.fits p
    · rcases h.turn with ht | ht
      · obtain ⟨e', ha, hroot, hprevious, hunseen⟩ := ht.ahead
        rw [Flow.push_of_ahead ha]
        exact .inl ⟨ht.unopened, ht.remote, e'.add p, rfl, hroot, hprevious, hunseen⟩
      · refine .inr ⟨?_, ht.remote, ht.ahead⟩
        rw [Flow.push, ht.unopened]

/-- Reading on a ratchet key that was taken up keeps the parties in step. -/
theorem moveTo (h : Linked ad x y fx fy gx gy) {j : Nat} {receiving : Option Chain}
    {skipped : SkippedKeys} {gx' : SkippedId → Prop} (hf : (fx.moveTo j).Fits)
    (hr : Reads ad (fx.moveTo j) { y with receiving, skipped } gx') :
    Linked ad x { y with receiving, skipped } (fx.moveTo j) fy gx' gy := by
  have hw := h.forth.writes
  have hb := h.back.writes
  refine ⟨⟨hf, ?_, hr⟩, ⟨h.back.fits, ⟨hb.idle, hb.key, hb.previousLength, hb.sending⟩,
    h.back.reads⟩, ?_⟩
  · refine ⟨?_, ?_, ?_, ?_⟩
    all_goals rw [Flow.latest_moveTo]
    · exact hw.idle
    · exact hw.key
    · exact hw.previousLength
    · exact hw.sending
  · rcases h.turn with ht | ht
    · obtain ⟨e, ha, hroot, hprevious, hunseen⟩ := ht.ahead
      refine .inl ⟨ht.unopened, ht.remote, e, ha, hroot, ?_, hunseen⟩
      rw [Flow.followed_moveTo]
      exact hprevious
    · exact .inr ⟨ht.unopened, ht.remote, ht.ahead⟩

/-- Reading on a new ratchet key makes the reader the leader. -/
theorem takeUp (hc : AgreementCommutes) (h : Linked ad x y fx fy gx gy) {e : Epoch}
    (ha : fx.ahead = some e) {own : Secret}
    (hfresh : ∀ k ∈ y.publicKey :: fy.keys, ¬ k.SamePoint own.publicKey) {j : Nat}
    {receiving : Option Chain} {skipped : SkippedKeys} {gx' : SkippedId → Prop}
    (hf : (fx.takeUp.moveTo j).Fits)
    (hr : Reads ad (fx.takeUp.moveTo j)
      { y.turned e.key x.rootKey e.chainKey own with receiving, skipped } gx') :
    ∃ e', e'.key = own.publicKey ∧
      Linked ad x { y.turned e.key x.rootKey e.chainKey own with receiving, skipped }
        (fx.takeUp.moveTo j) (fy.opened e') gx' gy := by
  have hw := h.forth.writes
  have hl : fx.latest = some e := by
    rw [Flow.latest, ha]
    rfl
  have hl' : (fx.takeUp.moveTo j).latest = some e := by
    rw [Flow.latest_moveTo, Flow.latest_takeUp ha]
  have hx := h.leads_of_ahead ha
  refine ⟨⟨own.publicKey, (Ratchet.deriveChain x.rootKey (own.agree e.key)).2,
    y.sending.elim 0 Chain.index, []⟩, rfl, ⟨hf, ?_, hr⟩, ⟨?_, ?_, ?_⟩, .inr ⟨?_, ?_, ?_⟩⟩
  · refine ⟨fun hn => ?_, ?_, ?_, ?_⟩
    · rw [hl'] at hn
      cases hn
    all_goals rw [hl', ← hl]
    · exact hw.key
    · exact hw.previousLength
    · exact hw.sending
  · exact h.back.fits.opened hx.unopened rfl fun k hk => hfresh k (List.mem_cons_of_mem _ hk)
  · exact Writes.opened fy rfl rfl rfl rfl
  · exact h.back.reads.opened _
  · rfl
  · exact congrArg some (hw.key e hl).symm
  · refine ⟨_, rfl, ?_, ?_, fun k hk => ?_⟩
    · -- the old leader would derive the root key of the new one, since agreements commute
      change Ratchet.deriveChain x.rootKey (x.secret.agree own.publicKey) = _
      rw [hc, ← Ratchet.publicKey, hw.key e hl]
      rfl
    · exact h.back.writes.toNat_length h.back.fits hx.unopened
    · rw [hx.remote] at hk
      cases hk
      exact hfresh _ List.mem_cons_self

/-- A message that is within reach and was not read is read, and the parties stay in step if a key
drawn for it is new. -/
theorem decrypt (hc : AgreementCommutes) (ho : OpensSealed) (h : Linked ad x y fx fy gx gy)
    {p : Bytes} {m : RatchetMessage} (hm : fx.Carries ad p m) (hunread : ¬ gx m.id)
    (hreach : y.WithinReach m) {own : Secret} {ent ent₁ : Entropy}
    (hdraw : Entropy.block 32 ent = .ok own ent₁) :
    ∃ y' ent', y.decrypt m ent = .ok (p, y') ent' ∧
      ((ent' = ent₁ → ∀ k ∈ y.publicKey :: fy.keys, ¬ k.SamePoint own.publicKey) →
        ∃ fx' fy', Linked ad x y' fx' fy' (fun id => gx id ∨ id = m.id) gy ∧
          fx'.epochs = fx.epochs ∧ (∀ e ∈ fy.epochs, e ∈ fy'.epochs) ∧
          (ent' = ent ∧ y'.publicKey = y.publicKey ∧ fy'.keys = fy.keys ∨
            ent' = ent₁ ∧ y'.publicKey = own.publicKey ∧
              fy'.keys = fy.keys ++ [own.publicKey])) := by
  obtain ⟨e, he, n, hp, rfl⟩ := hm
  have hf := h.forth.fits
  have hr := h.forth.reads
  have hn := Epoch.lt_size hp
  by_cases ha : fx.ahead = some e
  · have hx := h.leads_of_ahead ha
    obtain ⟨e₀, ha₀, hroot, hprevious, hunseen⟩ := hx.ahead
    rw [ha] at ha₀
    cases ha₀
    obtain ⟨hleft, hahead⟩ := hr.le_of_withinReach_ahead hf ha hn hprevious hunseen hreach
    obtain ⟨j, receiving, skipped, hd, hf', hr'⟩ :=
      hr.decryptAhead ho hf ha hn hprevious hunseen hleft hahead hroot hdraw (p := p)
    refine ⟨_, ent₁, hd, fun hfresh => ?_⟩
    obtain ⟨e', hkey, h'⟩ := h.takeUp hc ha (hfresh rfl) hf' hr'
    have heps := fy.epochs_opened hx.unopened e'
    refine ⟨_, _, h', ?_, fun e'' he'' => ?_, .inr ⟨rfl, rfl, ?_⟩⟩
    · rw [Flow.epochs_moveTo, Flow.epochs_takeUp]
    · rw [heps]
      exact List.mem_append_left _ he''
    · rw [Flow.keys, heps, List.map_append, ← Flow.keys, ← hkey]
      rfl
  · have hup : e ∈ fx.passed ∨ fx.followed = some e := by
      rcases Flow.mem_epochs_iff.mp he with he | he | he
      · exact .inl he
      · exact .inr (Flow.followed_eq_some_iff.mpr he)
      · exact absurd he ha
    obtain ⟨j, receiving, skipped, hd, hf', hr'⟩ := hr.decrypt ho hf hup hn hunread
      (fun i hc => hr.le_of_withinReach hf hc hn hreach) ent (p := p)
    exact ⟨_, ent, hd, fun _ => ⟨_, fy, h.moveTo hf' hr', fx.epochs_moveTo j, fun _ => id,
      .inl ⟨rfl, rfl, rfl⟩⟩⟩

end Linked

end MultiDevice
