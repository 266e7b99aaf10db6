import MultiDevice.Envelope.ContentKey
import MultiDevice.Proofs.Action
import MultiDevice.Proofs.Ratchet.Reader

/-!
# How far randomness was used

What draws uses up the source and changes nothing else about it, whether it succeeds or fails. What
a ratchet reads does not depend on what it draws.

## Main definitions

* `Entropy.Later`: the same source, used further
* `Draw.Advances`: what only uses up the source
* `Ratchet.withOwn`: a ratchet with other keys of its own

## Main results

* `Ratchet.decrypt_advances`: reading a message, whether it is read or not
* `Ratchet.exists_decrypt_of_draws`: a message is read whatever is drawn
-/

namespace MultiDevice

namespace Entropy

/-- The same source, used further. -/
structure Later (e e' : Entropy) : Prop where
  supply : e'.supply = e.supply
  refuses : e'.refuses = e.refuses
  drawn : e.drawn ≤ e'.drawn

theorem Later.refl (e : Entropy) : Later e e := ⟨rfl, rfl, Nat.le_refl _⟩

theorem Later.trans {e e' e'' : Entropy} (h : Later e e') (h' : Later e' e'') : Later e e'' :=
  ⟨h'.supply.trans h.supply, h'.refuses.trans h.refuses, Nat.le_trans h.drawn h'.drawn⟩

/-- The source after one more answered draw. -/
def next (e : Entropy) : Entropy := { e with attempts := e.attempts + 1, drawn := e.drawn + 1 }

theorem later_next (e : Entropy) : Later e e.next := ⟨rfl, rfl, Nat.le_succ _⟩

theorem block_eq (n : Nat) {e : Entropy} (h : e.refuses e.attempts = false) :
    block n e = .ok (e.supply e.drawn n) e.next := by
  unfold block
  rw [h]
  rfl

theorem eq_of_block {n : Nat} {e e' : Entropy} {b : Block n} (h : block n e = .ok b e') :
    b = e.supply e.drawn n ∧ e' = e.next := by
  cases hr : e.refuses e.attempts with
  | false =>
    rw [block_eq n hr] at h
    cases h
    exact ⟨rfl, rfl⟩
  | true =>
    unfold block at h
    rw [hr] at h
    cases h

/-- Drawing fails for lack of randomness. -/
theorem eq_of_block_error {n : Nat} {e e' : Entropy} {err : Error}
    (h : block n e = .error err e') : err = .noRandomness := by
  unfold block at h
  split at h
  · cases h
    rfl
  · cases h

end Entropy

namespace Draw

variable {α β : Type}

/-- A computation that uses up the source and changes nothing else about it. -/
def Advances (x : Draw α) : Prop := ∀ e, Entropy.Later e (endState x e)

namespace Advances

protected theorem pure (a : α) : Advances (pure a) := Entropy.Later.refl

protected theorem throw (err : Error) : Advances (throw err : Draw α) := Entropy.Later.refl

protected theorem block (n : Nat) : Advances (Entropy.block n) := by
  intro e
  unfold endState Entropy.block
  cases h : e.refuses e.attempts
  · exact e.later_next
  · exact ⟨rfl, rfl, Nat.le_refl _⟩

theorem bind {x : Draw α} {f : α → Draw β} (hx : Advances x) (hf : ∀ a, Advances (f a)) :
    Advances (x >>= f) := by
  intro e
  exact endState_bind_induction (hx e) fun a t _ ht => Entropy.Later.trans ht (hf a t)

theorem map (f : α → β) {x : Draw α} (hx : Advances x) : Advances (f <$> x) := by
  intro e
  rw [endState_map]
  exact hx e

theorem ofExcept (x : Except Error α) : Advances (Draw.ofExcept x) := by
  cases x with
  | ok a => exact Advances.pure a
  | error err => exact Advances.throw err

theorem of_ok {x : Draw α} (hx : Advances x) {e e' : Entropy} {a : α} (h : x e = .ok a e') :
    Entropy.Later e e' := by
  rw [← endState_of_ok h]
  exact hx e

theorem of_error {x : Draw α} (hx : Advances x) {e e' : Entropy} {err : Error}
    (h : x e = .error err e') : Entropy.Later e e' := by
  rw [← endState_of_error h]
  exact hx e

end Advances

end Draw

namespace ContentKey

theorem generate_advances : Draw.Advances generate :=
  (Draw.Advances.block 32).bind fun _ => Draw.Advances.pure _

theorem encrypt_advances [CipherSuite] (key : ContentKey) (plaintext : Bytes)
    (sender : DeviceAddress) : Draw.Advances (key.encrypt plaintext sender) :=
  (Draw.Advances.block 12).bind fun _ => Draw.Advances.pure _

end ContentKey

namespace Ratchet

variable [CipherSuite]

theorem initiate_advances (secret : Block 32) (remote : PublicKey) (maxSkip : UInt32)
    (ad : Block 64) : Draw.Advances (initiate secret remote maxSkip ad) :=
  (Draw.Advances.block 32).bind fun _ => Draw.Advances.pure _

theorem turn_advances (r : Ratchet) (remote : PublicKey) : Draw.Advances (r.turn remote) :=
  (Draw.Advances.block 32).bind fun _ => Draw.Advances.pure _

/-- Reading a message changes nothing about the source but how far it is used. -/
theorem decrypt_advances (r : Ratchet) (m : RatchetMessage) : Draw.Advances (r.decrypt m) := by
  intro ent
  cases hs : r.skipped[m.id]? with
  | some key =>
    unfold endState
    rw [decrypt_of_skipped hs]
    exact ((Draw.Advances.ofExcept _).bind fun _ => Draw.Advances.pure _) ent
  | none =>
    cases hf : r.follows m.header.ratchetKey with
    | true =>
      unfold endState
      rw [decrypt_of_follows hs hf]
      exact Draw.Advances.ofExcept _ ent
    | false =>
      unfold endState
      rw [decrypt_of_not_follows hs hf]
      exact ((Draw.Advances.ofExcept _).bind fun r => (turn_advances r _).bind fun _ =>
        Draw.Advances.ofExcept _) ent

/-! ## Reading does not depend on what is drawn -/

/-- The ratchet with other keys of its own. -/
def withOwn (r : Ratchet) (secret : Secret) (rootKey : Block 32) (sending : Option Chain) :
    Ratchet :=
  { r with secret, rootKey, sending }

theorem skip_withOwn (r : Ratchet) (secret : Secret) (rootKey : Block 32)
    (sending : Option Chain) (target : UInt32) :
    (r.withOwn secret rootKey sending).skip target =
      (r.skip target).map fun r' => r'.withOwn secret rootKey sending := by
  obtain ⟨ad, own, remote, root, sent, receiving, length, skipped, maxSkip⟩ := r
  cases remote with
  | none => rfl
  | some remote =>
    cases receiving with
    | none => rfl
    | some chain =>
      change (if min (chain.index.toNat + maxSkip.toNat) Chain.lastIndex.toNat < target.toNat then
        _ else _) = Except.map _ (if _ then _ else _)
      split
      · rfl
      · dsimp only [withOwn]
        cases skipKeys remote (target.toNat - chain.index.toNat) chain skipped <;> rfl

/-- What is read on a chain does not depend on the own keys of the ratchet. -/
theorem readOnChain_withOwn (r : Ratchet) (secret : Secret) (rootKey : Block 32)
    (sending : Option Chain) (m : RatchetMessage) :
    (r.withOwn secret rootKey sending).readOnChain m =
      (r.readOnChain m).map fun x => (x.1, x.2.withOwn secret rootKey sending) := by
  unfold readOnChain
  rw [skip_withOwn]
  cases r.skip m.header.number with
  | error err => rfl
  | ok r₁ =>
    obtain ⟨ad, own, remote, root, sent, receiving, length, skipped, maxSkip⟩ := r₁
    cases receiving with
    | none => rfl
    | some chain =>
      change (if _ then _ else _) = Except.map _ (if _ then _ else _)
      split
      · rfl
      · cases chain.advance with
        | error err next => rfl
        | ok key next =>
          change (decipher key (vouched ad m.header) m.ciphertext >>= _) =
            Except.map _ (decipher key (vouched ad m.header) m.ciphertext >>= _)
          cases decipher key (vouched ad m.header) m.ciphertext <;> rfl

/-- A message that is read with some randomness is read with any that is to be had, to the same
plaintext. -/
theorem exists_decrypt_of_draws {r r' : Ratchet} {m : RatchetMessage} {p : Bytes}
    {e e' t : Entropy} (h : r.decrypt m e = .ok (p, r') e') (ht : t.refuses t.attempts = false) :
    ∃ r'' t', r.decrypt m t = .ok (p, r'') t' := by
  cases hs : r.skipped[m.id]? with
  | some key =>
    rw [decrypt_of_skipped hs] at h
    obtain ⟨p', e₁, hd, h⟩ := bind_eq_ok_iff.mp h
    cases h
    obtain ⟨hopen, -⟩ := Draw.ofExcept_eq_ok_iff.mp hd
    refine ⟨{ r with skipped := r.skipped.erase m.id }, t, ?_⟩
    rw [decrypt_of_skipped hs, bind_of_ok (Draw.ofExcept_eq_ok_iff.mpr ⟨hopen, rfl⟩)]
    rfl
  | none =>
    cases hf : r.follows m.header.ratchetKey with
    | true =>
      rw [decrypt_of_follows hs hf] at h
      obtain ⟨hread, -⟩ := Draw.ofExcept_eq_ok_iff.mp h
      refine ⟨r', t, ?_⟩
      rw [decrypt_of_follows hs hf]
      exact Draw.ofExcept_eq_ok_iff.mpr ⟨hread, rfl⟩
    | false =>
      rw [decrypt_of_not_follows hs hf] at h
      obtain ⟨r₁, e₁, hskip, h⟩ := bind_eq_ok_iff.mp h
      obtain ⟨r₂, e₂, hturn, hread⟩ := bind_eq_ok_iff.mp h
      obtain ⟨hskip, -⟩ := Draw.ofExcept_eq_ok_iff.mp hskip
      obtain ⟨hread, -⟩ := Draw.ofExcept_eq_ok_iff.mp hread
      obtain ⟨rootKey, chainKey, hroot⟩ : ∃ rootKey chainKey,
        deriveChain r₁.rootKey (r₁.secret.agree m.header.ratchetKey) = (rootKey, chainKey) :=
        ⟨_, _, rfl⟩
      obtain ⟨own, e₃, hdraw, -⟩ := bind_eq_ok_iff.mp hturn
      cases (turn_of_draw hroot hdraw).symm.trans hturn
      obtain ⟨secret, root, sending, hturn'⟩ : ∃ secret root sending,
          r₁.turn m.header.ratchetKey t = .ok
            ((r₁.turned m.header.ratchetKey rootKey chainKey own).withOwn secret root sending)
            t.next := ⟨_, _, _, turn_of_draw hroot (Entropy.block_eq 32 ht)⟩
      refine ⟨r'.withOwn secret root sending, t.next, ?_⟩
      rw [decrypt_of_not_follows hs hf, bind_of_ok (Draw.ofExcept_eq_ok_iff.mpr ⟨hskip, rfl⟩)]
      refine (bind_of_ok hturn').trans (Draw.ofExcept_eq_ok_iff.mpr ⟨?_, rfl⟩)
      rw [readOnChain_withOwn, hread]
      rfl

end Ratchet

end MultiDevice
