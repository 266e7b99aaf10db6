import Mathlib.Data.Set.Function
import MultiDevice.Proofs.Exchange.Thread

/-!
# When both sides agree

Both sides of an agreement combine the same three shared secrets, or four of them when a one-time
pre-key takes part, and derive the secret from these bytes for a purpose. With a fourth the bytes
are longer, so the two kinds of agreement are never confused, whatever the keys.

## Main definitions

* `Agreement.material`: the bytes that a secret is derived from
* `Agreement.Offers`: a bundle with the public halves of a device's keys, signed by the device
* `Agreement.DerivesApart`: derivation keeps some inputs and purposes apart

## Main results

* `Agreement.length_material`: with a one-time pre-key there are 128 bytes, without one 96
* `Agreement.initiate_of_offers`: a signed bundle is accepted
* `Agreement.secrets_eq_iff`: both sides come to one secret exactly if they have the same purpose
  and both or neither of them used the one-time pre-key
-/

namespace MultiDevice.Agreement

/-- The bytes that a secret is derived from: three shared secrets, and a fourth one if a one-time
pre-key took part. -/
def material (first second third : Block 32) (fourth : Option (Block 32)) : Bytes :=
  first.toList ++ second.toList ++ third.toList ++ fourth.elim [] Block.toList

/-- A fourth secret shows in the length. -/
theorem length_material (first second third : Block 32) (fourth : Option (Block 32)) :
    (material first second third fourth).length = if fourth.isSome then 128 else 96 := by
  cases fourth <;> simp [material]

section Sides

variable [CipherSuite]

theorem combine_eq_derive (info : Bytes) (first second third : Block 32)
    (fourth : Option (Block 32)) :
    combine info first second third fourth =
      CipherSuite.derive salt (material first second third fourth) info 32 := by
  cases fourth <;> rfl

/-- What the initiator combines. -/
def initiatorMaterial (identity : IdentityKey) (bundle : PreKeyBundle) (ephemeral : Secret) :
    Bytes :=
  material (identity.secret.agree bundle.signedPreKey.key) (ephemeral.agree bundle.identity)
    (ephemeral.agree bundle.signedPreKey.key)
    (bundle.oneTimePreKey.map fun k => ephemeral.agree k.key)

/-- What the responder combines. -/
def responderMaterial (identity : IdentityKey) (signedPreKey : SignedPreKey)
    (oneTimePreKey : Option OneTimePreKey) (initiator ephemeral : PublicKey) : Bytes :=
  material (signedPreKey.secret.agree initiator) (identity.secret.agree ephemeral)
    (signedPreKey.secret.agree ephemeral) (oneTimePreKey.map fun k => k.secret.agree ephemeral)

theorem respond_eq_derive (info : Bytes) (identity : IdentityKey) (signed : SignedPreKey)
    (oneTime : Option OneTimePreKey) (initiator ephemeral : PublicKey) :
    respond info identity signed oneTime initiator ephemeral =
      CipherSuite.derive salt (responderMaterial identity signed oneTime initiator ephemeral)
        info 32 :=
  combine_eq_derive ..

/-- A bundle offers the keys of a device: it has their public halves, and the device signed it. -/
structure Offers (owner : IdentityKey) (signed : SignedPreKey) (oneTime : Option OneTimePreKey)
    (bundle : PreKeyBundle) : Prop where
  identity : bundle.identity = owner.publicKey
  signingKey : bundle.signingKey = owner.verifyingKey
  signedPreKey : bundle.signedPreKey.key = signed.publicKey
  signature : bundle.signature = signed.signature owner
  oneTimePreKey :
    bundle.oneTimePreKey.map NumberedKey.key = oneTime.map OneTimePreKey.publicKey

/-- Deriving secrets keeps some key materials and purposes apart. -/
def DerivesApart (inputs : Set (Bytes × Bytes)) : Prop :=
  Set.InjOn (fun x => CipherSuite.derive salt x.1 x.2 32) inputs

variable {identity responder : IdentityKey} {signed : SignedPreKey}
  {offered used : Option OneTimePreKey} {bundle : PreKeyBundle} {info info' : Bytes} {e : Entropy}

/-- A bundle that a device signed verifies. -/
theorem Offers.verify (h : Offers responder signed offered bundle)
    (haccepts : AcceptsOwnSignatures) : bundle.verify = .ok () := by
  have hverify : CipherSuite.verify bundle.signingKey bundle.signedPreKey.key.bytes.toList
      bundle.signature = .ok () := by
    rw [h.signingKey, h.signedPreKey, h.signature]
    exact haccepts responder.signingSeed signed.publicKey.bytes.toList
  unfold Credentials.verify
  rw [hverify]

/-- A bundle offers as many one-time pre-keys as its device meant to: one, or none. -/
theorem Offers.isSome (h : Offers responder signed offered bundle) :
    bundle.oneTimePreKey.isSome = offered.isSome := by
  have hmap := congrArg Option.isSome h.oneTimePreKey
  rwa [Option.isSome_map, Option.isSome_map] at hmap

/-- With randomness the initiator accepts a signed bundle, and derives its secret from what it
combines. -/
theorem initiate_of_offers (haccepts : AcceptsOwnSignatures)
    (h : Offers responder signed offered bundle) (hrandom : e.refuses e.attempts = false) :
    initiate info identity bundle e =
      .ok {
        secret := CipherSuite.derive salt
          (initiatorMaterial identity bundle (e.supply e.drawn 32)) info 32
        ephemeral := Secret.publicKey (e.supply e.drawn 32) } e.next := by
  unfold initiate
  rw [h.verify haccepts]
  refine (bind_of_ok (Entropy.block_eq 32 hrandom)).trans ?_
  exact congrArg (fun secret => EStateM.Result.ok (⟨secret, _⟩ : Initiation) e.next)
    (combine_eq_derive ..)

/-- The secret of an initiator comes from what it combines with the ephemeral key that it draws. -/
theorem secret_of_initiate {agreed : Initiation} {e' : Entropy}
    (h : initiate info identity bundle e = .ok agreed e') :
    agreed.secret = CipherSuite.derive salt
      (initiatorMaterial identity bundle (e.supply e.drawn 32)) info 32 := by
  unfold initiate at h
  cases hv : bundle.verify with
  | error err =>
    rw [hv] at h
    cases h
  | ok _ =>
    rw [hv] at h
    obtain ⟨ephemeral, t, hb, h⟩ := bind_eq_ok_iff.mp h
    obtain ⟨rfl, rfl⟩ := Entropy.eq_of_block hb
    cases h
    exact combine_eq_derive ..

/-- What is combined with a one-time pre-key differs from what is combined without one. -/
theorem isSome_of_material_eq {ephemeral : Secret} {initiator ephemeral' : PublicKey}
    (h : responderMaterial responder signed used initiator ephemeral' =
      initiatorMaterial identity bundle ephemeral) :
    used.isSome = bundle.oneTimePreKey.isSome := by
  have hlength := congrArg List.length h
  rw [responderMaterial, initiatorMaterial, length_material, length_material, Option.isSome_map,
    Option.isSome_map] at hlength
  cases hused : used.isSome <;> cases hbundle : bundle.oneTimePreKey.isSome <;>
    simp [hused, hbundle] at hlength ⊢

/-- **Both sides come to one secret exactly if they use the same.** A device signs a bundle with its
pre-keys, and with a one-time pre-key or without one. If there is randomness the initiator accepts
the bundle. The responder, given the ephemeral key, comes to the same secret if it has the same
purpose in mind and if both or neither of them used the one-time pre-key. If derivation keeps what
the two of them combined apart, that is the only case. -/
theorem secrets_eq_iff (hcommutes : AgreementCommutes) (haccepts : AcceptsOwnSignatures)
    (hbundle : Offers responder signed offered bundle)
    (hmatch : ∀ k ∈ offered, ∀ k' ∈ used, k' = k) (hrandom : e.refuses e.attempts = false) :
    ∃ agreed, initiate info identity bundle e = .ok agreed e.next ∧
      (info' = info ∧ used.isSome = offered.isSome →
        respond info' responder signed used identity.publicKey agreed.ephemeral =
          agreed.secret) ∧
      (DerivesApart {(initiatorMaterial identity bundle (e.supply e.drawn 32), info),
          (responderMaterial responder signed used identity.publicKey agreed.ephemeral, info')} →
        respond info' responder signed used identity.publicKey agreed.ephemeral =
            agreed.secret →
          info' = info ∧ used.isSome = offered.isSome) := by
  have hagreed := @initiate_of_offers _ identity responder signed offered bundle info e haccepts
    hbundle hrandom
  refine ⟨_, hagreed, ?_, fun hapart hsame => ?_⟩
  · rintro ⟨rfl, hsome⟩
    have hused : used = offered := by
      cases offered with
      | none => exact Option.isNone_iff_eq_none.mp (by simpa using hsome)
      | some k =>
        obtain ⟨k', rfl⟩ := Option.isSome_iff_exists.mp hsome
        rw [hmatch k rfl k' rfl]
    exact respond_eq hcommutes hagreed hbundle.identity hbundle.signedPreKey
      (hused ▸ hbundle.oneTimePreKey)
  · -- the same secret was derived from the same material, so from as many bytes
    rw [respond_eq_derive] at hsame
    have hinputs := hapart (Set.mem_insert_of_mem _ rfl) (Set.mem_insert _ _) hsame
    obtain ⟨hmaterial, hinfo⟩ := Prod.mk.inj hinputs
    exact ⟨hinfo, (isSome_of_material_eq hmaterial).trans hbundle.isSome⟩

end Sides

section Example

/-- A suite that hides nothing, in which derived bytes tell the purpose and how much was
combined. -/
@[reducible] def telling : CipherSuite :=
  { CipherSuite.transparent with
    derive _ input info n := Block.ofPrefix n (info ++ UInt8.ofNat input.length :: input) }

attribute [local instance] telling

/-- A block that repeats a byte. -/
def repeated (n : Nat) (b : UInt8) : Block n := ⟨List.replicate n b, List.length_replicate⟩

/-- The initiator, and the responder with its pre-keys. -/
def alice : IdentityKey := ⟨repeated 32 1, repeated 32 1⟩

def bob : IdentityKey := ⟨repeated 32 2, repeated 32 2⟩

def bobSigned : SignedPreKey := ⟨7, .epoch, repeated 32 3⟩

def bobOneTime : OneTimePreKey := ⟨5, repeated 32 4⟩

/-- The bundle of the responder, with its one-time pre-key. -/
def bobBundle : PreKeyBundle :=
  { identity := bob.publicKey
    signingKey := bob.verifyingKey
    signedPreKey := { id := bobSigned.id, key := bobSigned.publicKey }
    signature := bobSigned.signature bob
    oneTimePreKey := some { id := bobOneTime.id, key := bobOneTime.publicKey } }

theorem bobBundle_offers : Offers bob bobSigned (some bobOneTime) bobBundle :=
  ⟨rfl, rfl, rfl, rfl, rfl⟩

/-- A responder with the one-time pre-key comes to the secret of the initiator. One that leaves it
out, or that has another purpose in mind, does not. -/
theorem secrets_of_omissions :
    ∃ agreed, initiate [1] alice bobBundle .counting = .ok agreed Entropy.counting.next ∧
      respond [1] bob bobSigned (some bobOneTime) alice.publicKey agreed.ephemeral =
        agreed.secret ∧
      respond [1] bob bobSigned none alice.publicKey agreed.ephemeral ≠ agreed.secret ∧
      respond [2] bob bobSigned (some bobOneTime) alice.publicKey agreed.ephemeral ≠
        agreed.secret := by
  have hcommutes : AgreementCommutes := CipherSuite.transparent_agreementCommutes
  have haccepts : AcceptsOwnSignatures := CipherSuite.transparent_acceptsOwnSignatures
  have hagrees := @secrets_eq_iff _ alice bob bobSigned (some bobOneTime)
  obtain ⟨agreed, hagreed, hsame, -⟩ := @hagrees (some bobOneTime) bobBundle [1] [1] .counting
    hcommutes haccepts bobBundle_offers (by rintro _ ⟨⟩ _ ⟨⟩; rfl) rfl
  obtain ⟨agreed', hagreed', -, hleftOut⟩ := @hagrees none bobBundle [1] [1] .counting
    hcommutes haccepts bobBundle_offers nofun rfl
  obtain ⟨agreed'', hagreed'', -, hother⟩ := @hagrees (some bobOneTime) bobBundle [1] [2] .counting
    hcommutes haccepts bobBundle_offers (by rintro _ ⟨⟩ _ ⟨⟩; rfl) rfl
  cases hagreed.symm.trans hagreed'
  cases hagreed.symm.trans hagreed''
  obtain ⟨hephemeral, -⟩ := ephemeral_of_initiate hagreed
  refine ⟨agreed, hagreed, hsame ⟨rfl, rfl⟩, fun h => ?_, fun h => ?_⟩
  · rw [hephemeral] at hleftOut h
    exact absurd (hleftOut (Set.injOn_pair.mpr (by decide +kernel)) h).2 (by decide)
  · rw [hephemeral] at hother h
    exact absurd (hother (Set.injOn_pair.mpr (by decide +kernel)) h).1 (by decide)

end Example

end MultiDevice.Agreement
