import MultiDevice.Key.OneTime
import MultiDevice.Key.Signed
import MultiDevice.Proofs.Action
import MultiDevice.Proofs.Bytes.Block
import MultiDevice.Proofs.Session.Stored

/-!
# What is left of erased secrets

Keys, sessions and the stocks of pre-keys can be erased in place. Values that differ only in their
secrets look the same afterwards. Identities are the exception: an erased identity still has its
signing seed, and a new identity has both of its secrets from that seed.

## Main definitions

* `Tells`: what is shown of a value tells exactly as much about it as is known
* `Ratchet.outline`, `Session.outline`: the data that is no secret
* `IdentityKey.recover`: the identity with both secrets from the signing seed in a written form

## Main results

* `Ratchet.tells_wipe`, `Session.tells_serialize_wipe`: an erased session tells its outline
* `IdentityKey.tells_toBytes_wipe`: an erased identity tells its signing seed
* `IdentityKey.recover_of_generate`: a new identity can be recovered after it was erased
* `erased_tells`: what is left of each kind of value

## Why the condition is exact

That values with the same public data look the same is one direction of `Tells`. The other one says
that nothing more than the secrets was erased, and so rules out that something else is claimed to be
public than what really is left. For an identity the public data would be the two public keys; that
what is left tells the signing seed means that it tells more than them.
-/

namespace MultiDevice

/-- What is shown of a value tells exactly as much about it as is known: two values look the same
if and only if the same is known of them. -/
def Tells {α β γ : Type} (shown : α → β) (known : α → γ) : Prop :=
  ∀ a a', shown a = shown a' ↔ known a = known a'

/-- If writing loses nothing, what is written tells as much as what was to be shown. -/
theorem Tells.written {α β γ δ : Type} {write : β → δ} {shown : α → β} {known : α → γ}
    (h : Tells shown known) (hwrite : Function.Injective write) :
    Tells (fun a => write (shown a)) known :=
  fun a a' => hwrite.eq_iff.trans (h a a')

/-! ## Keys -/

/-- Nothing is left of a one-time pre-key. -/
theorem OneTimePreKey.tells_toBytes_wipe :
    Tells (fun k : OneTimePreKey => k.wipe.toBytes) fun _ => () :=
  fun _ _ => ⟨fun _ => rfl, fun _ => rfl⟩

/-- The creation time of a signed pre-key is left, as it is written. -/
theorem SignedPreKey.tells_toBytes_wipe :
    Tells (fun k : SignedPreKey => k.wipe.toBytes)
      fun k => Block.bigEndian 8 k.createdAt.epochSeconds := by
  intro k k'
  have hfront := @Block.append_inj 4 8 (Block.bigEndian 4 (k.wipe.id).toNat)
    (Block.bigEndian 4 (k'.wipe.id).toNat) (Block.bigEndian 8 k.createdAt.epochSeconds)
    (Block.bigEndian 8 k'.createdAt.epochSeconds)
  exact (Block.append_inj.trans (and_iff_left rfl)).trans (hfront.trans (and_iff_right rfl))

/-- The counters of the signed pre-keys are left. -/
theorem SignedPreKeyRing.tells_wipe :
    Tells SignedPreKeyRing.wipe fun r => (r.current, r.nextId) := by
  intro r r'
  simp only [SignedPreKeyRing.wipe, SignedPreKeyRing.mk.injEq, Prod.mk.injEq, true_and]

/-- The counter of the one-time pre-keys is left. -/
theorem OneTimePreKeyPool.tells_wipe : Tells OneTimePreKeyPool.wipe OneTimePreKeyPool.nextId := by
  intro p p'
  simp only [OneTimePreKeyPool.wipe, OneTimePreKeyPool.mk.injEq, true_and]

/-! ## Sessions -/

/-- The data of a ratchet that is no secret. -/
structure Ratchet.Outline where
  /-- The identities that every message vouches for. -/
  associatedData : Block 64
  /-- The peer's latest ratchet key, once one is known. -/
  remote : Option PublicKey
  /-- Whether there is a chain of sent messages. -/
  canSend : Bool
  /-- Whether there is a chain of messages of the peer. -/
  canReceive : Bool
  /-- How many messages were sent on the previous own ratchet key. -/
  previousLength : UInt32
  /-- How far ahead of its chain a message may be. -/
  maxSkip : UInt32
  deriving DecidableEq

/-- The data that is no secret. -/
def Ratchet.outline (r : Ratchet) : Ratchet.Outline :=
  { associatedData := r.associatedData
    remote := r.remote
    canSend := r.canSend
    canReceive := r.receiving.isSome
    previousLength := r.previousLength
    maxSkip := r.maxSkip }

/-- The data of a session that is no secret and not only of use until the remote device answers. -/
structure Session.Outline where
  /-- That of the ratchet. -/
  ratchet : Ratchet.Outline
  /-- The identity of the remote device. -/
  remoteIdentity : PublicKey
  /-- The ephemeral key that the session was agreed with. -/
  baseKey : PublicKey
  deriving DecidableEq

/-- The data that is no secret. -/
def Session.outline (s : Session) : Session.Outline :=
  { ratchet := s.ratchet.outline, remoteIdentity := s.remoteIdentity, baseKey := s.baseKey }

/-- Of an erased chain only its existence is left. -/
theorem Chain.map_wipe_inj {c c' : Option Chain} :
    c.map Chain.wipe = c'.map Chain.wipe ↔ c.isSome = c'.isSome := by
  cases c <;> cases c' <;> simp [Chain.wipe]

/-- Of an erased ratchet its outline is left. -/
theorem Ratchet.tells_wipe : Tells Ratchet.wipe Ratchet.outline := by
  intro r r'
  simp only [wipe, outline, canSend, Ratchet.mk.injEq, Outline.mk.injEq, Chain.map_wipe_inj,
    true_and]

theorem Session.tells_wipe : Tells Session.wipe Session.outline := by
  intro s s'
  simp only [wipe, outline, Session.mk.injEq, Outline.mk.injEq, and_true]
  exact and_congr_left' (Ratchet.tells_wipe s.ratchet s'.ratchet)

/-- Sessions are told apart by their written forms. -/
theorem Session.serialize_injective : Function.Injective Session.serialize := by
  intro s s' h
  have hs := s.stored_holds.deserialize
  have hs' := s'.stored_holds.deserialize
  rw [show Wire.write s.stored.fields = Wire.write s'.stored.fields from h] at hs
  exact Except.ok.inj (hs.symm.trans hs')

/-- Of an erased session its outline is left. -/
theorem Session.tells_serialize_wipe : Tells (fun s => s.wipe.serialize) Session.outline :=
  tells_wipe.written serialize_injective

/-! ## Identities -/

namespace IdentityKey

/-- The identity with both secrets from one seed. -/
def ofSeed (seed : Block 32) : IdentityKey := ⟨seed, seed⟩

/-- The identity with both secrets from the signing seed in a written form. -/
def recover (b : Block 64) : IdentityKey := ofSeed (ofBytes b).signingSeed

/-- An erased identity still has its signing seed. -/
theorem tells_toBytes_wipe : Tells (fun k => k.wipe.toBytes) signingSeed := by
  intro k k'
  exact Block.append_inj.trans (and_iff_left rfl)

/-- A new identity can be recovered after it was erased. -/
theorem recover_of_generate {e e' : Entropy} {k : IdentityKey} (h : generate e = .ok k e') :
    recover k.wipe.toBytes = k := by
  obtain ⟨seed, _, -, hk⟩ := bind_eq_ok_iff.mp h
  cases hk
  rw [recover, ofBytes_toBytes]
  rfl

end IdentityKey

/-- **What erasure leaves.** Two erased identities look the same exactly if they had the same
signing seed, and an identity that was new is recovered from what its erasure left. Of everything
else only data that is no secret is left: nothing of a one-time pre-key, the creation time of a
signed pre-key, the outline of a ratchet and of a session, as it is written, and the counters of the
stocks of pre-keys. -/
theorem erased_tells (k k' : IdentityKey) :
    (k.wipe.toBytes = k'.wipe.toBytes ↔ k.signingSeed = k'.signingSeed) ∧
    (∀ e e', IdentityKey.generate e = .ok k e' → IdentityKey.recover k.wipe.toBytes = k) ∧
    Tells (fun k : OneTimePreKey => k.wipe.toBytes) (fun _ => ()) ∧
    Tells (fun k : SignedPreKey => k.wipe.toBytes)
      (fun k => Block.bigEndian 8 k.createdAt.epochSeconds) ∧
    Tells Ratchet.wipe Ratchet.outline ∧
    Tells (fun s : Session => s.wipe.serialize) Session.outline ∧
    Tells SignedPreKeyRing.wipe (fun r => (r.current, r.nextId)) ∧
    Tells OneTimePreKeyPool.wipe OneTimePreKeyPool.nextId :=
  ⟨IdentityKey.tells_toBytes_wipe k k', fun _ _ => IdentityKey.recover_of_generate,
    OneTimePreKey.tells_toBytes_wipe, SignedPreKey.tells_toBytes_wipe, Ratchet.tells_wipe,
    Session.tells_serialize_wipe, SignedPreKeyRing.tells_wipe, OneTimePreKeyPool.tells_wipe⟩

section Example

/-- The session in the example of storage, but for other secrets. -/
def Session.elsewhere : Session :=
  { Session.paused with
    ratchet := { Session.paused.ratchet with
      secret := Block.ofPrefix 32 [1], rootKey := Block.ofPrefix 32 [2]
      receiving := some ⟨Block.ofPrefix 32 [3], 7⟩, skipped := ∅ } }

/-- A source whose blocks all start with a byte. -/
def Entropy.starting (b : UInt8) : Entropy := .ofSupply fun _ n => Block.ofPrefix n [b]

/-- Two sessions with different chains and with and without message keys put aside are the same once
they are erased, and an identity is recovered from what its erasure left. -/
theorem erased_tells_of_elsewhere :
    Session.elsewhere ≠ Session.paused ∧
      Session.elsewhere.wipe.serialize = Session.paused.wipe.serialize ∧
      ∃ k e, IdentityKey.generate (.starting 5) = .ok k e ∧ k.wipe ≠ k ∧
        IdentityKey.recover k.wipe.toBytes = k := by
  obtain ⟨-, hidentity, -, -, -, hsession, -⟩ :=
    erased_tells ⟨Block.ofPrefix 32 [5], Block.ofPrefix 32 [5]⟩ ⟨Block.zero 32, Block.zero 32⟩
  refine ⟨?_, (hsession _ _).mpr rfl, _, _, rfl, by decide, hidentity (.starting 5) _ rfl⟩
  intro h
  have hroot : (Block.ofPrefix 32 [2] : Block 32) = Block.zero 32 :=
    congrArg (fun s => s.ratchet.rootKey) h
  exact absurd hroot (by decide)

/-- Two new identities are told apart although both were erased. -/
theorem IdentityKey.exists_told_apart :
    ∃ k k' e e', generate (.starting 5) = .ok k e ∧ generate (.starting 6) = .ok k' e' ∧
      k.wipe.secret = k'.wipe.secret ∧ k.wipe.toBytes ≠ k'.wipe.toBytes :=
  ⟨_, _, _, _, rfl, rfl, rfl, by decide⟩

end Example

end MultiDevice
