import MultiDevice.Proofs.InPlace
import MultiDevice.Proofs.Session.Order
import MultiDevice.Proofs.Session.Stored

/-!
# What a failing call leaves

Reading a message changes a ratchet step by step: keys are put aside, a ratchet key is taken up, the
chain moves on, and only then is the message opened. A failure on the way undoes nothing. The steps
are therefore done on a copy, which takes the place of the ratchet when all of them succeeded, so a
message that cannot be read leaves a session, and a record of sessions, as it was. Encrypting moves
the sending chain in place. Where the numbers of the chain are used up it fails after the chain key
was replaced.

## Main definitions

* `Ratchet.attempt`, `Session.decryptInPlace`, `SessionRecord.decryptByAttempts`: reading a message
  step by step

## Main results

* `Ratchet.outcome_attempt`: the steps come to what `Ratchet.decrypt` says
* `Session.decryptInPlace_eq`, `SessionRecord.decryptByAttempts_eq`: so do sessions and records
* `left_by_failing_calls`: what each failing call leaves
-/

namespace MultiDevice

open InPlace (amend look draw onCopy ofDraw)

section Reading

variable [CipherSuite]

/-! ## Ratchets -/

namespace Ratchet

/-- Takes the next message key of the receiving chain. -/
def takeKey : InPlace Ratchet (Block 32) := fun (r, e) =>
  match r.receiving with
  | none => .error .noReceivingChain (r, e)
  | some chain =>
    match chain.advance with
    | .ok key chain => .ok key ({ r with receiving := some chain }, e)
    | .error err chain => .error err ({ r with receiving := some chain }, e)

/-- Puts the next `count` message keys of the receiving chain aside, one after the other. -/
def fileKeys (remote : PublicKey) : Nat → InPlace Ratchet Unit
  | 0 => return ()
  | count + 1 => do
    let number := (← look).receiving.elim 0 Chain.index
    let key ← takeKey
    amend fun r => { r with skipped := r.skipped.insert ⟨remote.bytes, number⟩ key }
    fileKeys remote count

/-- Puts aside the keys of the messages before number `target`. -/
def skipInPlace (target : UInt32) : InPlace Ratchet Unit := do
  let r ← look
  match r.remote, r.receiving with
  | some remote, some chain =>
    if min (chain.index.toNat + r.maxSkip.toNat) Chain.lastIndex.toNat < target.toNat then
      throw .tooManySkipped
    else fileKeys remote (target.toNat - chain.index.toNat)
  | _, _ => return ()

/-- Takes up a ratchet key of the peer. The receiving side is in place before a key is drawn for the
sending side. -/
def turnInPlace (remote : PublicKey) : InPlace Ratchet Unit := do
  amend fun r =>
    { r with previousLength := r.sending.elim 0 Chain.index, remote := some remote }
  amend fun r =>
    let (rootKey, receivingKey) := deriveChain r.rootKey (r.secret.agree remote)
    { r with rootKey, receiving := some (Chain.ofKey receivingKey) }
  let own : Secret ← draw (Entropy.block 32)
  amend fun r =>
    let (rootKey, sendingKey) := deriveChain r.rootKey (own.agree remote)
    { r with secret := own, rootKey, sending := some (Chain.ofKey sendingKey) }

/-- Takes up the ratchet key of a header if it is new. -/
def catchUpInPlace (header : MessageHeader) : InPlace Ratchet Unit := do
  if (← look).follows header.ratchetKey then return ()
  else
    skipInPlace header.previousLength
    turnInPlace header.ratchetKey

/-- Reads a message on the chain of its ratchet key. -/
def readInPlace (m : RatchetMessage) : InPlace Ratchet Bytes := do
  skipInPlace m.header.number
  let r ← look
  match r.receiving with
  | none => throw .noReceivingChain
  | some chain =>
    if m.header.number < chain.index then throw .duplicateMessage
    else
      let key ← takeKey
      draw (Draw.ofExcept (decipher key (vouched r.associatedData m.header) m.ciphertext))

/-- Reads a message step by step. A key put aside for the message is gone before the message is
opened. -/
def attempt (m : RatchetMessage) : InPlace Ratchet Bytes := do
  let r ← look
  match r.skipped[m.id]? with
  | some key =>
    amend fun r => { r with skipped := r.skipped.erase m.id }
    draw (Draw.ofExcept (decipher key (vouched r.associatedData m.header) m.ciphertext))
  | none =>
    catchUpInPlace m.header
    readInPlace m

variable {r : Ratchet} {chain : Chain}

theorem outcome_takeKey (h : r.receiving = some chain) :
    takeKey.outcome r =
      match chain.advance with
      | .ok key next => pure (key, { r with receiving := some next })
      | .error err _ => throw err := by
  funext e
  unfold InPlace.outcome takeKey
  dsimp only
  rw [h]
  dsimp only
  cases chain.advance <;> rfl

/-- Putting keys aside one after the other comes to what `skipKeys` says. -/
theorem outcome_fileKeys (remote : PublicKey) (count : Nat) (h : r.receiving = some chain) :
    (fileKeys remote count).outcome r =
      Draw.ofExcept ((skipKeys remote count chain r.skipped).map fun p =>
        ((), { r with receiving := some p.1, skipped := p.2 })) := by
  induction count generalizing r chain with
  | zero =>
    change (pure ((), r) : Draw (Unit × Ratchet)) = pure ((), { r with receiving := some chain })
    rw [← h]
  | succ count ih =>
    rw [fileKeys, InPlace.outcome_bind, InPlace.outcome_look, pure_bind, InPlace.outcome_bind,
      outcome_takeKey h, skipKeys]
    cases chain.advance with
    | ok key next =>
      dsimp only
      rw [pure_bind, InPlace.outcome_bind, InPlace.outcome_amend, pure_bind, ih rfl, h]
      rfl
    | error err next => rfl

theorem outcome_skipInPlace (target : UInt32) (r : Ratchet) :
    (skipInPlace target).outcome r = Draw.ofExcept ((r.skip target).map fun r' => ((), r')) := by
  rw [skipInPlace, InPlace.outcome_bind, InPlace.outcome_look, pure_bind, skip]
  cases hremote : r.remote with
  | none => rfl
  | some remote =>
    cases hreceiving : r.receiving with
    | none => rfl
    | some chain =>
      dsimp only
      split
      · rfl
      · rw [outcome_fileKeys remote _ hreceiving, ← hremote]
        cases skipKeys remote (target.toNat - chain.index.toNat) chain r.skipped <;> rfl

theorem outcome_turnInPlace (remote : PublicKey) (r : Ratchet) :
    (turnInPlace remote).outcome r = (fun r' => ((), r')) <$> r.turn remote := by
  simp only [turnInPlace, InPlace.outcome_bind, InPlace.outcome_amend, pure_bind,
    InPlace.outcome_draw, turn, map_bind, bind_map_left, map_pure]

theorem outcome_catchUpInPlace (header : MessageHeader) (r : Ratchet) :
    (catchUpInPlace header).outcome r = (fun r' => ((), r')) <$> r.catchUp header := by
  rw [catchUpInPlace, InPlace.outcome_bind, InPlace.outcome_look, pure_bind, catchUp]
  dsimp only
  split
  · rfl
  · rw [InPlace.outcome_bind, outcome_skipInPlace]
    cases r.skip header.previousLength with
    | error err => rfl
    | ok r₁ => exact outcome_turnInPlace header.ratchetKey r₁

theorem outcome_readInPlace (m : RatchetMessage) (r : Ratchet) :
    (readInPlace m).outcome r = Draw.ofExcept (r.readOnChain m) := by
  rw [readInPlace, InPlace.outcome_bind, outcome_skipInPlace, readOnChain]
  cases hs : r.skip m.header.number with
  | error err => rfl
  | ok r₁ =>
    have had : r₁.associatedData = r.associatedData := by
      obtain ⟨receiving, skipped, rfl⟩ := exists_of_skip hs
      rfl
    change ((look >>= _ : InPlace Ratchet Bytes)).outcome r₁ = _
    rw [InPlace.outcome_bind, InPlace.outcome_look, pure_bind]
    dsimp only [bind, Except.bind]
    cases hreceiving : r₁.receiving with
    | none => rfl
    | some chain =>
      dsimp only
      split
      · rfl
      · change (takeKey >>= _ : InPlace Ratchet Bytes).outcome r₁ = _
        rw [InPlace.outcome_bind, outcome_takeKey hreceiving]
        cases chain.advance with
        | error err next => rfl
        | ok key next =>
          dsimp only
          rw [pure_bind, InPlace.outcome_draw, had]
          dsimp only
          cases decipher key (vouched r.associatedData m.header) m.ciphertext <;> rfl

/-- Reading step by step comes to what `decrypt` says. -/
theorem outcome_attempt (m : RatchetMessage) (r : Ratchet) :
    (attempt m).outcome r = r.decrypt m := by
  rw [attempt, InPlace.outcome_bind, InPlace.outcome_look, pure_bind, decrypt]
  dsimp only [RatchetMessage.id]
  cases r.skipped[(⟨m.header.ratchetKey.bytes, m.header.number⟩ : SkippedId)]? with
  | some key =>
    dsimp only
    rw [InPlace.outcome_bind, InPlace.outcome_amend, pure_bind, InPlace.outcome_draw]
    rfl
  | none =>
    dsimp only
    rw [InPlace.outcome_bind, outcome_catchUpInPlace, bind_map_left]
    simp only [outcome_readInPlace]

end Ratchet

/-! ## Sessions and records -/

namespace Session

/-- Work on the ratchet of a session. -/
def onRatchet {α : Type} (x : InPlace Ratchet α) : InPlace Session α := fun (s, e) =>
  match x (s.ratchet, e) with
  | .ok a (ratchet, e) => .ok a ({ s with ratchet }, e)
  | .error err (ratchet, e) => .error err ({ s with ratchet }, e)

/-- Reads a message on a copy of the ratchet. After the first message that is read the session is
established. -/
def decryptInPlace (m : RatchetMessage) : InPlace Session Bytes := do
  let plaintext ← onRatchet (onCopy (Ratchet.attempt m))
  if (← look).pending.isSome then amend establish
  return plaintext

/-- A session in place becomes what `decrypt` says, or stays as it was. -/
theorem decryptInPlace_eq (m : RatchetMessage) :
    decryptInPlace m = ofDraw fun s => s.decrypt m := by
  funext ⟨s, e⟩
  have hcopy : onCopy (Ratchet.attempt m) = ofDraw fun r => r.decrypt m := by
    rw [InPlace.onCopy_eq]
    congr 1
    funext r
    exact Ratchet.outcome_attempt m r
  rw [decryptInPlace, hcopy]
  cases h : s.ratchet.decrypt m e with
  | ok a e' =>
    have hratchet : ofDraw (fun r => Ratchet.decrypt r m) (s.ratchet, e) = .ok a.1 (a.2, e') :=
      InPlace.ofDraw_of_ok h
    have hread : onRatchet (ofDraw fun r => Ratchet.decrypt r m) (s, e) =
        .ok a.1 ({ s with ratchet := a.2 }, e') := by
      simp only [onRatchet, hratchet]
    have hdecrypt : s.decrypt m e = .ok (a.1, { s with ratchet := a.2, pending := none }) e' :=
      decrypt_eq_ok_iff.mpr ⟨a.2, h, rfl⟩
    rw [InPlace.ofDraw_of_ok hdecrypt, bind_of_ok hread]
    obtain ⟨ratchet, remoteIdentity, baseKey, pending⟩ := s
    cases pending <;> rfl
  | error err e' =>
    have hratchet : ofDraw (fun r => Ratchet.decrypt r m) (s.ratchet, e) =
        .error err (s.ratchet, e') := InPlace.ofDraw_of_error h
    have hread : onRatchet (ofDraw fun r => Ratchet.decrypt r m) (s, e) = .error err (s, e') := by
      simp only [onRatchet, hratchet]
    have hdecrypt : s.decrypt m e = .error err e' := bind_of_error h
    rw [InPlace.ofDraw_of_error hdecrypt, bind_of_error hread]

end Session

namespace SessionRecord

/-- Tries the superseded sessions from a position on. A session that is tried and does not read the
message is left in its place as it is after that. -/
def attemptFrom (message : RatchetMessage) (baseKey : Option PublicKey) (failure : Error)
    (index : Nat) (r : SessionRecord) (e : Entropy) :
    EStateM.Result Error (SessionRecord × Entropy) (Bytes × PublicKey) :=
  if h : index < r.previous.length then
    if agreedWith baseKey r.previous[index] then
      match Session.decryptInPlace message (r.previous[index], e) with
      | .ok plaintext (session, e) =>
        .ok (plaintext, session.remoteIdentity)
          (({ r with previous := (r.previous.set index session).eraseIdx index }).promote session,
            e)
      | .error err (session, e) =>
        attemptFrom message baseKey err (index + 1)
          { r with previous := r.previous.set index session } e
    else attemptFrom message baseKey failure (index + 1) r e
  else .error failure (r, e)
termination_by r.previous.length - index
decreasing_by
  · simp only [List.length_set]
    omega
  · omega

/-- Reads a message in place, with sessions that are changed in place. -/
def decryptByAttempts (message : RatchetMessage) (baseKey : Option PublicKey) :
    InPlace SessionRecord (Bytes × PublicKey) := fun (r, e) =>
  if agreedWith baseKey r.current then
    match Session.decryptInPlace message (r.current, e) with
    | .ok plaintext (session, e) =>
      .ok (plaintext, session.remoteIdentity) ({ r with current := session }, e)
    | .error err (session, e) => attemptFrom message baseKey err 0 { r with current := session } e
  else attemptFrom message baseKey .noMatchingState 0 r e

/-- Sessions that do not read the message are as they were, so trying goes on with the same
record. -/
theorem attemptFrom_eq (message : RatchetMessage) (baseKey : Option PublicKey) (failure : Error)
    (index : Nat) (r : SessionRecord) (e : Entropy) :
    attemptFrom message baseKey failure index r e =
      r.tryFrom message baseKey failure index e := by
  fun_induction tryFrom message baseKey failure index r e with
  | case1 failure index e h ha plaintext session e₁ hd tried =>
    rw [attemptFrom, dif_pos h, if_pos ha, Session.decryptInPlace_eq, InPlace.ofDraw_of_ok hd]
  | case2 failure index e h ha err e₁ hd ih =>
    rw [attemptFrom, dif_pos h, if_pos ha, Session.decryptInPlace_eq, InPlace.ofDraw_of_error hd]
    dsimp only
    rw [List.set_getElem_self]
    exact ih
  | case3 failure index e h ha ih =>
    rw [attemptFrom, dif_pos h, if_neg ha]
    exact ih
  | case4 failure index e h => rw [attemptFrom, dif_neg h]

/-- A record in place becomes what `decrypt` says, or stays as it was. -/
theorem decryptByAttempts_eq (message : RatchetMessage) (baseKey : Option PublicKey) :
    decryptByAttempts message baseKey =
      ofDraw fun r => (fun a => ((a.1, a.2.1), a.2.2)) <$> r.decrypt message baseKey := by
  have htry : decryptByAttempts message baseKey = decryptInPlace message baseKey := by
    funext ⟨r, e⟩
    unfold decryptByAttempts decryptInPlace
    dsimp only
    split
    · cases h : r.current.decrypt message e with
      | ok a e' => rw [Session.decryptInPlace_eq, InPlace.ofDraw_of_ok h]
      | error err e' =>
        rw [Session.decryptInPlace_eq, InPlace.ofDraw_of_error h]
        exact attemptFrom_eq message baseKey err 0 r e'
    · exact attemptFrom_eq message baseKey _ 0 r e
  rw [htry]
  funext ⟨r, e⟩
  rw [decryptInPlace_eq]
  cases h : r.decrypt message baseKey e with
  | ok a e' => simp only [ofDraw, map_of_ok h]
  | error err e' => simp only [ofDraw, map_of_error h]

end SessionRecord

/-! ## What failing calls leave -/

/-- Encrypting fails where there is no sending chain, which leaves the session as it was, and where
the numbers of the chain are used up, which replaces the key of the chain. -/
theorem Session.encrypt_eq_error_iff {s s' : Session} {plaintext : Bytes} {err : Error} :
    s.encrypt plaintext = .error err s' ↔
      (s.ratchet.sending = none ∧ err = .noSendingChain ∧ s' = s) ∨
        ∃ chain, s.ratchet.sending = some chain ∧ chain.index = Chain.lastIndex ∧
          err = .chainExhausted ∧
          s' = { s with ratchet :=
            { s.ratchet with sending := some { chain with key := chain.nextKey } } } := by
  unfold encrypt Ratchet.encrypt
  cases hs : s.ratchet.sending with
  | none =>
    constructor
    · rintro ⟨⟩
      exact .inl ⟨rfl, rfl, rfl⟩
    · rintro (⟨-, rfl, rfl⟩ | ⟨chain, hchain, -⟩)
      · rfl
      · cases hchain
  | some chain =>
    unfold Chain.advance
    by_cases hlast : chain.index = Chain.lastIndex
    · simp only [if_pos hlast]
      constructor
      · rintro ⟨⟩
        exact .inr ⟨chain, rfl, hlast, rfl, rfl⟩
      · rintro (⟨hnone, -⟩ | ⟨chain', hchain, -, rfl, rfl⟩)
        · cases hnone
        · cases hchain
          rfl
    · simp only [if_neg hlast]
      constructor
      · rintro ⟨⟩
      · rintro (⟨hnone, -⟩ | ⟨chain', hchain, hlast', -⟩)
        · cases hnone
        · cases hchain
          exact absurd hlast' hlast

/-- **What failing calls leave.** A message that cannot be read, step by step, leaves the session as
it was, or the record whose sessions were tried one after the other. Encrypting leaves the session
as it was where there is no sending chain. Where the numbers of the sending chain are used up it
leaves all but the key of that chain, which moves on. -/
theorem left_by_failing_calls :
    (∀ (s : Session) (plaintext : Bytes) (err : Error) (s' : Session),
      s.encrypt plaintext = .error err s' ↔
        (s.ratchet.sending = none ∧ err = .noSendingChain ∧ s' = s) ∨
          ∃ chain, s.ratchet.sending = some chain ∧ chain.index = Chain.lastIndex ∧
            err = .chainExhausted ∧
            s' = { s with ratchet :=
              { s.ratchet with sending := some { chain with key := chain.nextKey } } }) ∧
      (∀ (s : Session) (m : RatchetMessage) (e : Entropy) (err : Error) (t : Session × Entropy),
        Session.decryptInPlace m (s, e) = .error err t ↔
          ∃ e', s.decrypt m e = .error err e' ∧ t = (s, e')) ∧
      ∀ (r : SessionRecord) (m : RatchetMessage) (baseKey : Option PublicKey) (e : Entropy)
        (err : Error) (t : SessionRecord × Entropy),
        SessionRecord.decryptByAttempts m baseKey (r, e) = .error err t ↔
          ∃ e', r.decrypt m baseKey e = .error err e' ∧ t = (r, e') := by
  refine ⟨fun s plaintext err s' => Session.encrypt_eq_error_iff, fun s m e err t => ?_,
    fun r m baseKey e err t => ?_⟩
  · rw [Session.decryptInPlace_eq]
    exact InPlace.ofDraw_eq_error_iff
  · rw [SessionRecord.decryptByAttempts_eq, InPlace.ofDraw_eq_error_iff]
    refine exists_congr fun e' => and_congr_left fun _ => map_eq_error_iff

end Reading

section Spent

attribute [local instance] CipherSuite.transparent

/-- A session whose sending chain has no numbers left. -/
def Session.spent : Session :=
  let key : PublicKey := ⟨Block.zero 32⟩
  { ratchet := {
      associatedData := Block.zero 64, secret := Block.zero 32, remote := some key
      rootKey := Block.zero 32, sending := some { key := Block.zero 32, index := Chain.lastIndex }
      receiving := none, previousLength := 0, skipped := ∅, maxSkip := 10 }
    remoteIdentity := key, baseKey := key, pending := none }

/-- A session that was read from storage and cannot encrypt any more is changed all the same. -/
theorem Session.encrypt_changes_spent :
    ∃ s', Session.deserialize Session.spent.serialize = .ok Session.spent ∧
      Session.spent.encrypt [1] = .error .chainExhausted s' ∧ s' ≠ Session.spent :=
  ⟨_, Session.spent.stored_holds.deserialize, rfl, by decide +kernel⟩

end Spent

end MultiDevice
