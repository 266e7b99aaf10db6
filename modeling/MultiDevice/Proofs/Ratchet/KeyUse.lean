import MultiDevice.Proofs.Ratchet.Reader

/-!
# How a ratchet uses its keys

Every key of a ratchet is derived from another one, which is used up. What a party holds was derived
once, and nothing has been derived from it: so a message key that served once never serves again,
whatever messages arrive. This rests on one assumption only, that the derivations that were made
have different outputs.

## Main definitions

* `Derivation`: where a key comes from
* `Derivation.Distinct`: different derivations have different outputs
* `Slot`, `Ratchet.keyIn`: where a ratchet holds keys
* `Unspent`: what is held was derived and not used
* `Ratchet.locate`: finds the message key of a message
* `Ratchet.derivedFor`, `Ratchet.derivedNext`: the derivations made to read a message, and to send
  the next one

## Main results

* `Unspent.derive`: using up one key keeps the others unspent
* `Ratchet.decrypt_eq`: a message is read by locating its key and opening the ciphertext
* `Unspent.locate`, `Unspent.encrypt`: reading and sending keep the keys that are held unspent
-/

namespace MultiDevice

/-- Where a key of a ratchet comes from. -/
inductive Derivation where
  /-- The secret that the parties start from. -/
  | agreed (secret : Block 32)
  /-- The next root key. -/
  | root (rootKey shared : Block 32)
  /-- The first key of a chain. -/
  | chain (rootKey shared : Block 32)
  /-- The message key of a chain key. -/
  | message (chainKey : Block 32)
  /-- The chain key after a chain key. -/
  | next (chainKey : Block 32)
  /-- The cipher key of a message key. -/
  | cipher (messageKey : Block 32)
  deriving DecidableEq

namespace Derivation

/-- The key that a derivation uses up. -/
def spends : Derivation → Option (Block 32)
  | agreed _ => none
  | root rootKey _ => some rootKey
  | chain rootKey _ => some rootKey
  | message chainKey => some chainKey
  | next chainKey => some chainKey
  | cipher messageKey => some messageKey

variable [CipherSuite]

/-- The key that is derived. -/
def output : Derivation → Block 32
  | agreed secret => secret
  | root rootKey shared => (Ratchet.deriveChain rootKey shared).1
  | chain rootKey shared => (Ratchet.deriveChain rootKey shared).2
  | message chainKey => (Chain.ofKey chainKey).messageKey
  | next chainKey => (Chain.ofKey chainKey).nextKey
  | cipher messageKey => (Ratchet.deriveCipher messageKey).1

/-- Different derivations have different outputs. -/
def Distinct (made : List Derivation) : Prop :=
  ∀ d ∈ made, ∀ d' ∈ made, d.output = d'.output → d = d'

instance (made : List Derivation) : Decidable (Distinct made) :=
  inferInstanceAs (Decidable (∀ d ∈ made, ∀ d' ∈ made, d.output = d'.output → d = d'))

theorem Distinct.subset {made made' : List Derivation} (h : Distinct made') (hs : made ⊆ made') :
    Distinct made := fun d hd d' hd' => h d (hs hd) d' (hs hd')

end Derivation

open MultiDevice.Derivation (Distinct)

/-! ## Keys that are held and not used -/

section Unspent

variable [CipherSuite] {ι : Type} {made new : List Derivation} {held held' : ι → Option (Block 32)}

/-- The keys in some places were derived, each in one place only, and nothing was derived from
them. -/
structure Unspent (made : List Derivation) (held : ι → Option (Block 32)) : Prop where
  derived : ∀ i k, held i = some k → ∃ d ∈ made, d.output = k
  unspent : ∀ i k, held i = some k → ∀ d ∈ made, d.spends ≠ some k
  apart : ∀ i j k, held i = some k → held j = some k → i = j
  closed : ∀ d ∈ made, ∀ k, d.spends = some k → ∃ d' ∈ made, d'.output = k

namespace Unspent

/-- A secret that was just agreed on is unspent. -/
theorem agreed {secret : Block 32} {a : ι} (hheld : ∀ i k, held i = some k → i = a ∧ k = secret) :
    Unspent [.agreed secret] held where
  derived i k hk := ⟨_, List.mem_singleton.mpr rfl, (hheld i k hk).2.symm⟩
  unspent i k hk d hd := by
    rw [List.mem_singleton.mp hd]
    exact nofun
  apart i j k hi hj := (hheld i k hi).1.trans (hheld j k hj).1.symm
  closed d hd k hk := by
    rw [List.mem_singleton.mp hd] at hk
    cases hk

/-- Keys may be put in other places, and some may be given up. -/
theorem relocate {ι' : Type} {held' : ι' → Option (Block 32)} (h : Unspent made held)
    (place : ι' → ι) (hheld : ∀ i k, held' i = some k → held (place i) = some k)
    (hplace : ∀ i j, (held' i).isSome → (held' j).isSome → place i = place j → i = j) :
    Unspent made held' where
  derived i k hk := h.derived _ k (hheld i k hk)
  unspent i k hk := h.unspent _ k (hheld i k hk)
  apart i j k hi hj := hplace i j (by rw [hi]; rfl) (by rw [hj]; rfl)
    (h.apart _ _ k (hheld i k hi) (hheld j k hj))
  closed := h.closed

/-- What is derived from an unspent key was not derived before. -/
theorem output_ne (h : Unspent made held) {a : ι} {k₀ : Block 32} (hk₀ : held a = some k₀)
    (hnew : ∀ d ∈ new, d.spends = some k₀) (hd : Distinct (made ++ new)) {d d' : Derivation}
    (hmem : d ∈ new) (hmem' : d' ∈ made) : d'.output ≠ d.output := by
  intro heq
  have := hd d' (List.mem_append_left _ hmem') d (List.mem_append_right _ hmem) heq
  subst this
  exact h.unspent a k₀ hk₀ d' hmem' (hnew d' hmem)

/-- Using up one key keeps the others unspent, and what was derived from it is unspent, if each
output is put in a place of its own. -/
theorem derive (h : Unspent made held) {a : ι} {k₀ : Block 32} (hk₀ : held a = some k₀)
    (hnew : ∀ d ∈ new, d.spends = some k₀) (hd : Distinct (made ++ new)) (place : Derivation → ι)
    (hheld : ∀ i k, held' i = some k →
      (i ≠ a ∧ held i = some k) ∨ ∃ d ∈ new, place d = i ∧ d.output = k) :
    Unspent (made ++ new) held' where
  derived i k hk := by
    rcases hheld i k hk with ⟨-, hk⟩ | ⟨d, hmem, -, hout⟩
    · obtain ⟨d, hmem, hout⟩ := h.derived i k hk
      exact ⟨d, List.mem_append_left _ hmem, hout⟩
    · exact ⟨d, List.mem_append_right _ hmem, hout⟩
  unspent i k hk d hmem hspends := by
    rcases hheld i k hk with ⟨hne, hk⟩ | ⟨d₁, hmem₁, -, hout⟩
    · rcases List.mem_append.mp hmem with hmem | hmem
      · exact h.unspent i k hk d hmem hspends
      · rw [hnew d hmem] at hspends
        cases hspends
        exact hne (h.apart i a k₀ hk hk₀)
    · have hbefore : ∃ d' ∈ made, d'.output = k := by
        rcases List.mem_append.mp hmem with hmem | hmem
        · exact h.closed d hmem k hspends
        · rw [hnew d hmem] at hspends
          cases hspends
          exact h.derived a k₀ hk₀
      obtain ⟨d', hmem', hout'⟩ := hbefore
      exact h.output_ne hk₀ hnew hd hmem₁ hmem' (hout'.trans hout.symm)
  apart i j k hi hj := by
    rcases hheld i k hi with ⟨-, hi⟩ | ⟨d, hmem, hplace, hout⟩
    · rcases hheld j k hj with ⟨-, hj⟩ | ⟨d', hmem', -, hout'⟩
      · exact h.apart i j k hi hj
      · obtain ⟨d, hmem, hout⟩ := h.derived i k hi
        exact absurd (hout.trans hout'.symm) (h.output_ne hk₀ hnew hd hmem' hmem)
    · rcases hheld j k hj with ⟨-, hj⟩ | ⟨d', hmem', hplace', hout'⟩
      · obtain ⟨d', hmem', hout'⟩ := h.derived j k hj
        exact absurd (hout'.trans hout.symm) (h.output_ne hk₀ hnew hd hmem hmem')
      · have heq := hd d (List.mem_append_right _ hmem) d' (List.mem_append_right _ hmem')
          (hout.trans hout'.symm)
        rw [← hplace, ← hplace', heq]
  closed d hmem k hspends := by
    rcases List.mem_append.mp hmem with hmem | hmem
    · obtain ⟨d', hmem', hout⟩ := h.closed d hmem k hspends
      exact ⟨d', List.mem_append_left _ hmem', hout⟩
    · rw [hnew d hmem] at hspends
      cases hspends
      obtain ⟨d', hmem', hout⟩ := h.derived a k₀ hk₀
      exact ⟨d', List.mem_append_left _ hmem', hout⟩

/-- Two keys are derived from one, which is used up. -/
theorem derive_pair (h : Unspent made held) {a b c : ι} {k₀ : Block 32} (hk₀ : held a = some k₀)
    {d₁ d₂ : Derivation} (h₁ : d₁.spends = some k₀) (h₂ : d₂.spends = some k₀) (hne : d₂ ≠ d₁)
    (hd : Distinct (made ++ [d₁, d₂]))
    (hheld : ∀ i k, held' i = some k →
      (i ≠ a ∧ held i = some k) ∨ (i = b ∧ k = d₁.output) ∨ (i = c ∧ k = d₂.output)) :
    Unspent (made ++ [d₁, d₂]) held' := by
  refine h.derive hk₀ (by simp [h₁, h₂]) hd (fun d => if d = d₁ then b else c) fun i k hk => ?_
  rcases hheld i k hk with hold | ⟨rfl, rfl⟩ | ⟨rfl, rfl⟩
  · exact .inl hold
  · exact .inr ⟨d₁, by simp, if_pos rfl, rfl⟩
  · exact .inr ⟨d₂, by simp, if_neg hne, rfl⟩

/-- A message key is used to encrypt or to open, and dropped. -/
theorem spend (h : Unspent made held) {a : ι} {key : Block 32} (hkey : held a = some key)
    (hd : Distinct (made ++ [.cipher key]))
    (hheld : ∀ i k, held' i = some k → i ≠ a ∧ held i = some k) :
    Unspent (made ++ [.cipher key]) held' :=
  h.derive hkey (by simp [Derivation.spends]) hd (fun _ => a) fun i k hk => .inl (hheld i k hk)

/-- A message key that is held has not been used. -/
theorem cipher_notMem (h : Unspent made held) {a : ι} {key : Block 32}
    (hkey : held a = some key) : .cipher key ∉ made := fun hmem =>
  h.unspent a key hkey _ hmem rfl

end Unspent

end Unspent

/-! ## The keys of a ratchet -/

/-- A place for a key of a ratchet. -/
inductive Slot where
  /-- The root key. -/
  | root
  /-- The key of the sending chain. -/
  | sending
  /-- The key of the receiving chain. -/
  | receiving
  /-- The message key put aside under a name. -/
  | skipped (id : SkippedId)
  /-- A message key that was taken to be used. -/
  | taken
  deriving DecidableEq

/-- The key in a place, while a message key may have been taken. -/
def Ratchet.keyIn (r : Ratchet) (taken : Option (Block 32)) : Slot → Option (Block 32)
  | .root => some r.rootKey
  | .sending => r.sending.map Chain.key
  | .receiving => r.receiving.map Chain.key
  | .skipped id => r.skipped[id]?
  | .taken => taken

/-- The keys of a ratchet, and others that are held beside them. -/
def Ratchet.keysBeside {κ : Type} (r : Ratchet) (taken : Option (Block 32))
    (rest : κ → Option (Block 32)) : Slot ⊕ κ → Option (Block 32) :=
  Sum.elim (r.keyIn taken) rest

/-- A message key, and the ratchet once it was taken. -/
structure Located where
  /-- The message key. -/
  key : Block 32
  /-- The ratchet without it. -/
  ratchet : Ratchet
  /-- The derivations made to find it. -/
  derivations : List Derivation

variable [CipherSuite]

theorem Chain.eq_of_advance {c next : Chain} {key : Block 32} (h : c.advance = .ok key next) :
    key = c.messageKey ∧ next.key = c.nextKey := by
  unfold advance at h
  split at h
  · cases h
  · cases h
    exact ⟨rfl, rfl⟩

/-- The derivations of several steps of a chain. -/
def Chain.derivedSteps : Nat → Block 32 → List Derivation
  | 0, _ => []
  | count + 1, key =>
    [.message key, .next key] ++ derivedSteps count (Chain.ofKey key).nextKey

namespace Ratchet

/-- The derivations made to put keys aside. -/
def derivedToSkip (r : Ratchet) (target : UInt32) : List Derivation :=
  match r.remote, r.receiving with
  | some _, some chain => Chain.derivedSteps (target.toNat - chain.index.toNat) chain.key
  | _, _ => []

/-- The derivations made to take up a ratchet key. -/
def derivedToTurn (r : Ratchet) (remote : PublicKey) (own : Secret) : List Derivation :=
  let shared := r.secret.agree remote
  let rootKey := (deriveChain r.rootKey shared).1
  [.root r.rootKey shared, .chain r.rootKey shared] ++
    [.root rootKey (own.agree remote), .chain rootKey (own.agree remote)]

/-- The derivations made to take up the ratchet key of a header if it is new. -/
def derivedToCatchUp (r : Ratchet) (header : MessageHeader) (own : Secret) : List Derivation :=
  if r.follows header.ratchetKey then []
  else r.derivedToSkip header.previousLength ++ r.derivedToTurn header.ratchetKey own

/-- Takes the message key of the next message on the receiving chain. -/
def takeNext (r : Ratchet) (number : UInt32) : Except Error (Block 32 × Block 32 × Ratchet) :=
  match r.receiving with
  | none => throw .noReceivingChain
  | some chain =>
    if number < chain.index then throw .duplicateMessage
    else
      match chain.advance with
      | .error err _ => throw err
      | .ok key next => return (chain.key, key, { r with receiving := some next })

/-- Finds the message key of a message: it was put aside, or it is next on the chain of its ratchet
key once the keys before it were put aside. -/
def locate (r : Ratchet) (m : RatchetMessage) : Draw Located :=
  match r.skipped[m.id]? with
  | some key =>
    return { key, ratchet := { r with skipped := r.skipped.erase m.id }, derivations := [] }
  | none => do
    let caught ← r.catchUp m.header
    let ready ← Draw.ofExcept (caught.skip m.header.number)
    let (chainKey, key, ratchet) ← Draw.ofExcept (ready.takeNext m.header.number)
    return {
      key, ratchet
      derivations := r.derivedToCatchUp m.header caught.secret ++
        caught.derivedToSkip m.header.number ++ [.message chainKey, .next chainKey] }

/-- The derivations made to read a message. -/
def derivedFor (r : Ratchet) (m : RatchetMessage) (ent : Entropy) : List Derivation :=
  match r.locate m ent with
  | .ok l _ => l.derivations ++ [.cipher l.key]
  | .error _ _ => []

/-- The message key with which a message is opened, if it is. -/
def opens? (r : Ratchet) (m : RatchetMessage) (ent : Entropy) : Option (Block 32) :=
  match r.locate m ent with
  | .ok l _ =>
    match decipher l.key (vouched r.associatedData m.header) m.ciphertext with
    | .ok _ => some l.key
    | .error _ => none
  | .error _ _ => none

/-- The derivations made to send the next message. An exhausted chain moves on without a message
key. -/
def derivedNext (r : Ratchet) : List Derivation :=
  match r.sending with
  | none => []
  | some chain =>
    if chain.index = Chain.lastIndex then [.next chain.key]
    else [.message chain.key, .next chain.key] ++ [.cipher chain.messageKey]

theorem Chain.agreed_notMem_derivedSteps (secret : Block 32) (count : Nat) (key : Block 32) :
    Derivation.agreed secret ∉ Chain.derivedSteps count key := by
  induction count generalizing key with
  | zero => exact List.not_mem_nil
  | succ count ih =>
    intro hmem
    rcases List.mem_append.mp hmem with hmem | hmem
    · simp only [List.mem_cons, List.not_mem_nil, reduceCtorEq, or_self] at hmem
    · exact ih _ hmem

theorem agreed_notMem_derivedToSkip (secret : Block 32) (r : Ratchet) (target : UInt32) :
    .agreed secret ∉ r.derivedToSkip target := by
  unfold derivedToSkip
  split
  · exact Chain.agreed_notMem_derivedSteps _ _ _
  · exact List.not_mem_nil

theorem agreed_notMem_of_locate {r : Ratchet} {m : RatchetMessage} {ent ent' : Entropy}
    {l : Located} (secret : Block 32) (h : r.locate m ent = .ok l ent') :
    .agreed secret ∉ l.derivations := by
  unfold locate at h
  cases hkey : r.skipped[m.id]? with
  | some key =>
    rw [hkey] at h
    cases h
    exact List.not_mem_nil
  | none =>
    rw [hkey] at h
    obtain ⟨caught, ent₁, -, h⟩ := bind_eq_ok_iff.mp h
    obtain ⟨ready, ent₂, -, h⟩ := bind_eq_ok_iff.mp h
    obtain ⟨⟨chainKey, key, r'⟩, ent₃, -, h⟩ := bind_eq_ok_iff.mp h
    cases h
    have hcatch : .agreed secret ∉ r.derivedToCatchUp m.header caught.secret := by
      unfold derivedToCatchUp
      split
      · exact List.not_mem_nil
      · intro hmem
        rcases List.mem_append.mp hmem with hmem | hmem
        · exact agreed_notMem_derivedToSkip _ _ _ hmem
        · simp [derivedToTurn] at hmem
    intro hmem
    rcases List.mem_append.mp hmem with hmem | hmem
    · rcases List.mem_append.mp hmem with hmem | hmem
      · exact hcatch hmem
      · exact agreed_notMem_derivedToSkip _ _ _ hmem
    · simp at hmem

/-- No secret is agreed on to read a message. -/
theorem agreed_notMem_derivedFor (secret : Block 32) (r : Ratchet) (m : RatchetMessage)
    (ent : Entropy) : .agreed secret ∉ r.derivedFor m ent := by
  unfold derivedFor
  split
  · next hl =>
    intro hmem
    rcases List.mem_append.mp hmem with hmem | hmem
    · exact agreed_notMem_of_locate secret hl hmem
    · simp at hmem
  · exact List.not_mem_nil

/-- No secret is agreed on to send a message. -/
theorem agreed_notMem_derivedNext (secret : Block 32) (r : Ratchet) :
    .agreed secret ∉ r.derivedNext := by
  unfold derivedNext
  split
  · exact List.not_mem_nil
  · split
    · simp
    · simp

/-! ## Reading is locating and opening -/

variable {r r' : Ratchet} {m : RatchetMessage} {ent ent' : Entropy}

theorem readOnChain_eq (r : Ratchet) (m : RatchetMessage) :
    r.readOnChain m = (do
      let ready ← r.skip m.header.number
      let taken ← ready.takeNext m.header.number
      let plaintext ← decipher taken.2.1 (vouched r.associatedData m.header) m.ciphertext
      return (plaintext, taken.2.2)) := by
  unfold readOnChain
  cases hs : r.skip m.header.number with
  | error err => rfl
  | ok ready =>
    obtain ⟨receiving, skipped, rfl⟩ := exists_of_skip hs
    cases receiving with
    | none => rfl
    | some chain =>
      change (if m.header.number < chain.index then throw Error.duplicateMessage else _) =
        Except.bind (if m.header.number < chain.index then throw Error.duplicateMessage else _) _
      split
      · rfl
      · cases chain.advance <;> rfl

theorem catchUp_associatedData {header : MessageHeader}
    (h : r.catchUp header ent = .ok r' ent') : r'.associatedData = r.associatedData := by
  unfold catchUp at h
  split at h
  · cases h
    rfl
  · obtain ⟨r₁, ent₁, hskip, hturn⟩ := bind_eq_ok_iff.mp h
    obtain ⟨receiving, skipped, rfl⟩ := exists_of_skip (Draw.ofExcept_eq_ok_iff.mp hskip).1
    obtain ⟨-, -, had, -⟩ := exists_of_turn hturn
    exact had

/-- A message is read by locating its key and opening the ciphertext. -/
theorem decrypt_eq (r : Ratchet) (m : RatchetMessage) :
    r.decrypt m = (do
      let l ← r.locate m
      let plaintext ←
        Draw.ofExcept (decipher l.key (vouched r.associatedData m.header) m.ciphertext)
      return (plaintext, l.ratchet)) := by
  funext ent
  unfold decrypt locate RatchetMessage.id
  cases r.skipped[(⟨m.header.ratchetKey.bytes, m.header.number⟩ : SkippedId)]? with
  | some key => rfl
  | none =>
    simp only [bind_assoc]
    cases hc : r.catchUp m.header ent with
    | error err ent' => rw [bind_of_error hc, bind_of_error hc]
    | ok caught ent' =>
      rw [bind_of_ok hc, bind_of_ok hc, readOnChain_eq, catchUp_associatedData hc]
      simp only [Draw.ofExcept_bind, pure_bind]
      rfl

/-- A message is opened under the cipher key of its message key. -/
theorem exists_of_opens {key : Block 32} (h : r.opens? m ent = some key) :
    CipherSuite.Opens (Derivation.cipher key).output m.ciphertext := by
  unfold opens? at h
  split at h
  · next l _ hl =>
    split at h
    · next plaintext hopen =>
      cases h
      exact ⟨_, _, _, decrypt_of_decipher hopen⟩
    · cases h
  · cases h

/-- What is known of a message that was read. -/
theorem exists_of_decrypt_eq_ok {p : Bytes} (h : r.decrypt m ent = .ok (p, r') ent') :
    ∃ l, r.locate m ent = .ok l ent' ∧ r.opens? m ent = some l.key ∧ r' = l.ratchet ∧
      r.derivedFor m ent = l.derivations ++ [.cipher l.key] := by
  rw [decrypt_eq] at h
  obtain ⟨l, ent₁, hl, h⟩ := bind_eq_ok_iff.mp h
  obtain ⟨plaintext, ent₂, hx, h⟩ := bind_eq_ok_iff.mp h
  obtain ⟨hp, rfl⟩ := Draw.ofExcept_eq_ok_iff.mp hx
  cases h
  refine ⟨l, hl, ?_, rfl, ?_⟩
  · simp only [opens?, hl, hp]
  · simp only [derivedFor, hl]

end Ratchet

/-! ## Ratchets keep their keys unspent

A ratchet uses and derives its own keys, and leaves those that are held beside it alone. -/

namespace Unspent

open Ratchet

variable {made : List Derivation} {r r' : Ratchet} {ent ent' : Entropy} {κ : Type}
  {rest : κ → Option (Block 32)} {taken taken' : Option (Block 32)}

/-- A ratchet with nothing beside it. -/
theorem alone_iff : Unspent made (r.keysBeside taken (nofun : Empty → Option (Block 32))) ↔
    Unspent made (r.keyIn taken) := by
  constructor
  · intro h
    exact h.relocate .inl (fun _ _ hk => hk) fun _ _ _ _ heq => Sum.inl.inj heq
  · intro h
    refine h.relocate (fun | .inl i => i | .inr j => nomatch j) ?_ ?_
    · rintro (i | j) k hk
      · exact hk
      · exact nomatch j
    · rintro (i | i) (j | j) _ _ heq
      · exact congrArg Sum.inl heq
      all_goals contradiction

/-- A ratchet derives two keys from one of its own, which is used up. -/
theorem derive_pair_beside (h : Unspent made (r.keysBeside taken rest)) {a b c : Slot}
    {k₀ : Block 32} (hk₀ : r.keyIn taken a = some k₀) {d₁ d₂ : Derivation}
    (h₁ : d₁.spends = some k₀) (h₂ : d₂.spends = some k₀) (hne : d₂ ≠ d₁)
    (hd : Distinct (made ++ [d₁, d₂]))
    (hheld : ∀ i k, r'.keyIn taken' i = some k → (i ≠ a ∧ r.keyIn taken i = some k) ∨
      (i = b ∧ k = d₁.output) ∨ (i = c ∧ k = d₂.output)) :
    Unspent (made ++ [d₁, d₂]) (r'.keysBeside taken' rest) := by
  refine h.derive_pair (a := .inl a) (b := .inl b) (c := .inl c) hk₀ h₁ h₂ hne hd ?_
  rintro (i | j) k hk
  · rcases hheld i k hk with ⟨hne, hold⟩ | ⟨rfl, hnew⟩ | ⟨rfl, hnew⟩
    · exact .inl ⟨fun heq => hne (Sum.inl.inj heq), hold⟩
    · exact .inr (.inl ⟨rfl, hnew⟩)
    · exact .inr (.inr ⟨rfl, hnew⟩)
  · exact .inl ⟨nofun, hk⟩

/-- The keys of a ratchet may change their places. -/
theorem relocate_beside (h : Unspent made (r.keysBeside taken rest)) (place : Slot → Slot)
    (hheld : ∀ i k, r'.keyIn taken' i = some k → r.keyIn taken (place i) = some k)
    (hplace : ∀ i j, (r'.keyIn taken' i).isSome → (r'.keyIn taken' j).isSome →
      place i = place j → i = j) : Unspent made (r'.keysBeside taken' rest) := by
  refine h.relocate (Sum.map place id) ?_ ?_
  · rintro (i | j) k hk
    · exact hheld i k hk
    · exact hk
  · rintro (i | i) (j | j) hi hj heq
    · exact congrArg Sum.inl (hplace i j hi hj (Sum.inl.inj heq))
    · cases heq
    · cases heq
    · exact heq

/-- Putting keys aside moves them out of the chain, one by one. -/
theorem skipKeys {remote : PublicKey} {count : Nat} {chain chain' : Chain}
    {skipped skipped' : SkippedKeys}
    (h : Unspent made
      (({ r with receiving := some chain, skipped } : Ratchet).keysBeside none rest))
    (hd : Distinct (made ++ Chain.derivedSteps count chain.key))
    (hs : Ratchet.skipKeys remote count chain skipped = .ok (chain', skipped')) :
    Unspent (made ++ Chain.derivedSteps count chain.key)
      (({ r with receiving := some chain', skipped := skipped' } : Ratchet).keysBeside
        none rest) := by
  induction count generalizing made chain skipped with
  | zero =>
    cases hs
    rwa [Chain.derivedSteps, List.append_nil]
  | succ count ih =>
    rw [Chain.derivedSteps, ← List.append_assoc] at hd ⊢
    unfold Ratchet.skipKeys at hs
    cases hadv : chain.advance with
    | error err next =>
      rw [hadv] at hs
      cases hs
    | ok key next =>
      rw [hadv] at hs
      obtain ⟨rfl, hnext⟩ := Chain.eq_of_advance hadv
      have hstep : Unspent (made ++ [.message chain.key, .next chain.key])
          (({ r with
            receiving := some next
            skipped := skipped.insert ⟨remote.bytes, chain.index⟩ chain.messageKey } :
            Ratchet).keysBeside none rest) := by
        have hother : Derivation.next chain.key ≠ .message chain.key := by
          rintro ⟨⟩
        refine h.derive_pair_beside (a := .receiving) (b := .skipped ⟨remote.bytes, chain.index⟩)
          (c := .receiving) rfl rfl rfl hother (hd.subset (List.subset_append_left _ _)) ?_
        intro i k hk
        cases i with
        | receiving => exact .inr (.inr ⟨rfl, (Option.some.inj hk).symm.trans hnext⟩)
        | skipped id =>
          simp only [Ratchet.keyIn, Std.ExtTreeMap.getElem?_insert,
            Std.LawfulEqCmp.compare_eq_iff_eq] at hk
          split at hk
          · next hid => exact .inr (.inl ⟨congrArg _ hid.symm, (Option.some.inj hk).symm⟩)
          · exact .inl ⟨by rintro ⟨⟩, hk⟩
        | taken => cases hk
        | _ => exact .inl ⟨by rintro ⟨⟩, hk⟩
      have hkey : (Chain.ofKey chain.key).nextKey = next.key := hnext.symm
      rw [hkey] at hd ⊢
      exact ih hstep hd hs

theorem skip {target : UInt32} (h : Unspent made (r.keysBeside none rest))
    (hd : Distinct (made ++ r.derivedToSkip target)) (hs : r.skip target = .ok r') :
    Unspent (made ++ r.derivedToSkip target) (r'.keysBeside none rest) := by
  obtain ⟨ad, secret, remote, rootKey, sending, receiving, previous, skipped, maxSkip⟩ := r
  cases remote with
  | none =>
    cases hs
    rwa [derivedToSkip, List.append_nil]
  | some remote =>
    cases receiving with
    | none =>
      cases hs
      rwa [derivedToSkip, List.append_nil]
    | some chain =>
      simp only [Ratchet.skip] at hs
      split at hs
      · cases hs
      · split at hs
        · cases hs
        · next hkeys =>
          cases hs
          exact skipKeys (r := ⟨ad, secret, some remote, rootKey, sending, some chain, previous,
            skipped, maxSkip⟩) h hd hkeys

/-- Taking up a ratchet key uses up the root key twice, for a chain to receive on and for one to
send on. -/
theorem turn {remote : PublicKey} (h : Unspent made (r.keysBeside none rest))
    (ht : r.turn remote ent = .ok r' ent')
    (hd : Distinct (made ++ r.derivedToTurn remote r'.secret)) :
    Unspent (made ++ r.derivedToTurn remote r'.secret) (r'.keysBeside none rest) := by
  obtain ⟨own, ent₁, -, ht⟩ := bind_eq_ok_iff.mp ht
  cases ht
  rw [derivedToTurn, ← List.append_assoc] at hd ⊢
  have hhalf : Unspent (made ++ [.root r.rootKey (r.secret.agree remote),
      .chain r.rootKey (r.secret.agree remote)])
      (({ r with
        rootKey := (deriveChain r.rootKey (r.secret.agree remote)).1
        receiving := some (Chain.ofKey (deriveChain r.rootKey (r.secret.agree remote)).2) } :
        Ratchet).keysBeside none rest) := by
    refine h.derive_pair_beside (a := .root) (b := .root) (c := .receiving) rfl rfl rfl nofun
      (hd.subset (List.subset_append_left _ _)) ?_
    intro i k hk
    cases i with
    | root => exact .inr (.inl ⟨rfl, (Option.some.inj hk).symm⟩)
    | receiving => exact .inr (.inr ⟨rfl, (Option.some.inj hk).symm⟩)
    | taken => cases hk
    | _ => exact .inl ⟨nofun, hk⟩
  refine hhalf.derive_pair_beside (a := .root) (b := .root) (c := .sending) rfl rfl rfl nofun hd ?_
  intro i k hk
  cases i with
  | root => exact .inr (.inl ⟨rfl, (Option.some.inj hk).symm⟩)
  | sending => exact .inr (.inr ⟨rfl, (Option.some.inj hk).symm⟩)
  | taken => cases hk
  | _ => exact .inl ⟨nofun, hk⟩

theorem catchUp {header : MessageHeader} (h : Unspent made (r.keysBeside none rest))
    (hc : r.catchUp header ent = .ok r' ent')
    (hd : Distinct (made ++ r.derivedToCatchUp header r'.secret)) :
    Unspent (made ++ r.derivedToCatchUp header r'.secret) (r'.keysBeside none rest) := by
  unfold Ratchet.catchUp at hc
  unfold derivedToCatchUp at hd ⊢
  split at hc
  · next hf =>
    cases hc
    rwa [if_pos hf, List.append_nil]
  · next hf =>
    rw [if_neg hf, ← List.append_assoc] at hd ⊢
    obtain ⟨r₁, ent₁, hx, hturn⟩ := bind_eq_ok_iff.mp hc
    obtain ⟨hskip, rfl⟩ := Draw.ofExcept_eq_ok_iff.mp hx
    have hskipped := h.skip (hd.subset (List.subset_append_left _ _)) hskip
    obtain ⟨receiving, skipped, rfl⟩ := exists_of_skip hskip
    exact hskipped.turn hturn hd

theorem takeNext {number : UInt32} {chainKey key : Block 32}
    (h : Unspent made (r.keysBeside none rest))
    (ht : r.takeNext number = .ok (chainKey, key, r'))
    (hd : Distinct (made ++ [.message chainKey, .next chainKey])) :
    Unspent (made ++ [.message chainKey, .next chainKey]) (r'.keysBeside (some key) rest) := by
  unfold Ratchet.takeNext at ht
  split at ht
  · cases ht
  · next chain hchain =>
    split at ht
    · cases ht
    · split at ht
      · cases ht
      · next hadv =>
        cases ht
        obtain ⟨rfl, hnext⟩ := Chain.eq_of_advance hadv
        refine h.derive_pair_beside (a := .receiving) (b := .taken) (c := .receiving)
          (by rw [Ratchet.keyIn, hchain]; rfl) rfl rfl nofun hd ?_
        intro i k hk
        cases i with
        | receiving => exact .inr (.inr ⟨rfl, (Option.some.inj hk).symm.trans hnext⟩)
        | taken => exact .inr (.inl ⟨rfl, (Option.some.inj hk).symm⟩)
        | _ => exact .inl ⟨nofun, hk⟩

/-- A message key that was located was held, or derived from a key that was held. -/
theorem locate {m : RatchetMessage} {l : Located} (h : Unspent made (r.keysBeside none rest))
    (hl : r.locate m ent = .ok l ent') (hd : Distinct (made ++ l.derivations)) :
    Unspent (made ++ l.derivations) (l.ratchet.keysBeside (some l.key) rest) := by
  unfold Ratchet.locate at hl
  cases hkey : r.skipped[m.id]? with
  | some key =>
    rw [hkey] at hl
    cases hl
    rw [List.append_nil]
    refine h.relocate_beside (fun | .taken => .skipped m.id | i => i) ?_ ?_
    · intro i k hk
      cases i with
      | skipped id =>
        simp only [Ratchet.keyIn, Std.ExtTreeMap.getElem?_erase] at hk
        split at hk
        · cases hk
        · exact hk
      | taken => exact hkey.trans hk
      | _ => exact hk
    · have hnone : (r.skipped.erase m.id)[m.id]? = none := by simp
      rintro (_ | _ | _ | id | _) (_ | _ | _ | id' | _) hi hj heq <;> cases heq <;> try rfl
      · exact absurd hi (by rw [Ratchet.keyIn, hnone]; nofun)
      · exact absurd hj (by rw [Ratchet.keyIn, hnone]; nofun)
  | none =>
    rw [hkey] at hl
    obtain ⟨caught, ent₁, hcatch, hl⟩ := bind_eq_ok_iff.mp hl
    obtain ⟨ready, ent₂, hx, hl⟩ := bind_eq_ok_iff.mp hl
    obtain ⟨hskip, rfl⟩ := Draw.ofExcept_eq_ok_iff.mp hx
    obtain ⟨⟨chainKey, key, r'⟩, ent₃, hx, hl⟩ := bind_eq_ok_iff.mp hl
    obtain ⟨htake, rfl⟩ := Draw.ofExcept_eq_ok_iff.mp hx
    cases hl
    simp only [← List.append_assoc] at hd ⊢
    have hd₂ := hd.subset (List.subset_append_left _ _)
    have hd₁ := hd₂.subset (List.subset_append_left _ _)
    exact ((h.catchUp hcatch hd₁).skip hd₂ hskip).takeNext htake hd

/-- Using the message key that was taken leaves the others. -/
theorem spend_taken {key : Block 32} (h : Unspent made (r.keysBeside (some key) rest))
    (hd : Distinct (made ++ [.cipher key])) :
    Unspent (made ++ [.cipher key]) (r.keysBeside none rest) := by
  refine h.spend (a := .inl .taken) rfl hd ?_
  rintro (i | j) k hk
  · cases i with
    | taken => cases hk
    | _ => exact ⟨nofun, hk⟩
  · exact ⟨nofun, hk⟩

/-- After a message was read the keys that are held are unspent, and its key was unspent before. -/
theorem decrypt {m : RatchetMessage} {p : Bytes} (h : Unspent made (r.keysBeside none rest))
    (hr : r.decrypt m ent = .ok (p, r') ent') (hd : Distinct (made ++ r.derivedFor m ent)) :
    Unspent (made ++ r.derivedFor m ent) (r'.keysBeside none rest) ∧
      ∃ key, r.opens? m ent = some key ∧ .cipher key ∈ r.derivedFor m ent ∧ .cipher key ∉ made := by
  obtain ⟨l, hl, hopens, rfl, hfor⟩ := exists_of_decrypt_eq_ok hr
  rw [hfor] at hd ⊢
  rw [← List.append_assoc] at hd ⊢
  have hlocated := h.locate hl (hd.subset (List.subset_append_left _ _))
  refine ⟨hlocated.spend_taken hd, l.key, hopens, by simp, fun hmem => ?_⟩
  exact hlocated.cipher_notMem (a := .inl .taken) rfl (List.mem_append_left _ hmem)

/-- After a message was sent, or could not be sent, the keys that are held are unspent. -/
theorem encrypt (h : Unspent made (r.keysBeside none rest)) (p : Bytes)
    (hd : Distinct (made ++ r.derivedNext)) :
    Unspent (made ++ r.derivedNext) ((endState (Ratchet.encrypt p) r).keysBeside none rest) := by
  unfold derivedNext at hd ⊢
  unfold endState Ratchet.encrypt
  cases hsend : r.sending with
  | none =>
    rwa [List.append_nil]
  | some chain =>
    have hkey : r.keyIn none .sending = some chain.key := by
      rw [Ratchet.keyIn, hsend]
      rfl
    rw [hsend] at hd
    simp only at hd ⊢
    unfold Chain.advance
    by_cases hlast : chain.index = Chain.lastIndex
    · simp only [if_pos hlast] at hd ⊢
      refine h.derive (a := .inl .sending) hkey (by simp [Derivation.spends]) hd
        (fun _ => .inl .sending) ?_
      rintro (i | j) k hk
      · cases i with
        | sending => exact .inr ⟨_, List.mem_singleton.mpr rfl, rfl, Option.some.inj hk⟩
        | taken => cases hk
        | _ => exact .inl ⟨nofun, hk⟩
      · exact .inl ⟨nofun, hk⟩
    · simp only [if_neg hlast, ← List.append_assoc] at hd ⊢
      have htaken : Unspent (made ++ [.message chain.key, .next chain.key])
          (({ r with sending := some { key := chain.nextKey, index := chain.index + 1 } } :
            Ratchet).keysBeside (some chain.messageKey) rest) := by
        refine h.derive_pair_beside (b := .taken) (c := .sending) hkey rfl rfl nofun
          (hd.subset (List.subset_append_left _ _)) ?_
        intro i k hk
        cases i with
        | sending => exact .inr (.inr ⟨rfl, (Option.some.inj hk).symm⟩)
        | taken => exact .inr (.inl ⟨rfl, (Option.some.inj hk).symm⟩)
        | _ => exact .inl ⟨nofun, hk⟩
      exact htaken.spend_taken hd

end Unspent

end MultiDevice
