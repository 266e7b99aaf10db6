import MultiDevice.Messenger.Publish
import MultiDevice.Proofs.InPlace
import MultiDevice.Proofs.Key.Issued

/-!
# Starting afresh

A device that starts afresh replaces its identity and all its pre-keys and forgets its sessions. It
draws everything first, and what it keeps is changed only when the last draw was answered. The new
pre-keys are numbered on from the old ones. So, whatever was done with what the device keeps, and
however often it started afresh, a new number is larger than every number of its kind that the
device ever had, as long as not all numbers were used.

## Main definitions

* `Store.Call`, `Store.stages`: what changes what a device keeps, and what it keeps one call after
  the other
* `Store.reprovisionInPlace`: starting afresh step by step
* `Store.Step`: what a call can do
* `PreKeyKind.everHeld`: the numbers that a device ever had
* `Store.Afresh`: what a device keeps that started afresh

## Main results

* `Store.reprovisionInPlace_eq`: what the steps of starting afresh come to
* `Store.Call.step`, `Store.Step.issues`: no call gives a number out of turn
* `Store.everHeld_of_provision`: the numbers that a device ever had are those from one up to the
  next one
* `Store.afresh_after_calls`: starting afresh is all or nothing, and the numbers are new
-/

namespace MultiDevice

open InPlace (amend look draw update)
open Numbers (Issues)

/-- The two kinds of pre-keys. -/
inductive PreKeyKind where
  /-- Signed pre-keys. -/
  | signed
  /-- One-time pre-keys. -/
  | oneTime

namespace PreKeyKind

/-- The numbers of a kind that are in use. -/
def numbers : PreKeyKind → Store → Finset UInt32
  | signed, s => s.signedPreKeys.numbers
  | oneTime, s => s.oneTimePreKeys.numbers

/-- The next number of a kind. -/
def nextId : PreKeyKind → Store → UInt32
  | signed, s => s.signedPreKeys.nextId
  | oneTime, s => s.oneTimePreKeys.nextId

/-- The numbers of a kind that were in use at one of several times. -/
def everHeld (kind : PreKeyKind) (stages : List Store) : Finset UInt32 :=
  stages.foldr (fun s held => kind.numbers s ∪ held) ∅

theorem everHeld_append (kind : PreKeyKind) (stages : List Store) (s : Store) :
    kind.everHeld (stages ++ [s]) = kind.everHeld stages ∪ kind.numbers s := by
  induction stages with
  | nil => simp [everHeld]
  | cons first rest ih =>
    change kind.numbers first ∪ kind.everHeld (rest ++ [s]) = _
    rw [ih, ← Finset.union_assoc]
    rfl

end PreKeyKind

namespace Store

/-! ## Step by step -/

/-- Draws a signed pre-key, the one-time pre-keys and an identity, and then replaces one after the
other. -/
def reprovisionInPlace (count : Nat) (now : Time) : InPlace Store Unit := do
  let s ← look
  let signedPreKeys ← draw (SignedPreKeyRing.startingAt s.signedPreKeys.nextId now)
  let oneTimePreKeys ← draw (newPool s.oneTimePreKeys.nextId count)
  let identity ← draw IdentityKey.generate
  amend fun s => { s with identity }
  amend fun s => { s with signedPreKeys }
  amend fun s => { s with oneTimePreKeys }
  amend fun s => { s with sessions := ∅ }

/-- What changes what a device keeps. -/
inductive Call where
  /-- Makes a signed pre-key. -/
  | createSignedPreKey (now : Time)
  /-- Puts a signed pre-key in use. -/
  | promoteSignedPreKey (id : UInt32)
  /-- Schedules a signed pre-key to be dropped. -/
  | expireSignedPreKey (id : UInt32) (expiry : Time)
  /-- Drops the signed pre-keys that are due. -/
  | purgeSignedPreKeys (now : Time)
  /-- Removes a one-time pre-key. -/
  | removeOneTimePreKey (id : UInt32)
  /-- Fills up the pool of one-time pre-keys. -/
  | replenish (target : Nat)
  /-- Keeps the sessions with a device. -/
  | saveSession (device : DeviceAddress) (record : SessionRecord)
  /-- Forgets the sessions with a device. -/
  | deleteSession (device : DeviceAddress)
  /-- Forgets the sessions with an account. -/
  | deleteSessions (account : Account)
  /-- Changes the trust decision on a device. -/
  | updateTrust (device : DeviceAddress) (change : TrustRecord → TrustRecord)
  /-- Starts afresh. -/
  | reprovision (count : Nat) (now : Time)

/-- A call, without its answer. -/
def Call.perform : Call → InPlace Store Unit
  | createSignedPreKey now => update fun s => Prod.snd <$> s.createSignedPreKey now
  | promoteSignedPreKey id => update fun s => Prod.snd <$> Draw.ofExcept (s.promoteSignedPreKey id)
  | expireSignedPreKey id expiry => update fun s => Draw.ofExcept (s.expireSignedPreKey id expiry)
  | purgeSignedPreKeys now => amend fun s => (s.purgeSignedPreKeys now).2
  | removeOneTimePreKey id => amend fun s => (s.removeOneTimePreKey id).2
  | replenish target => (fun _ => ()) <$> Store.replenish target
  | saveSession device record => amend fun s => s.saveSession device record
  | deleteSession device => amend fun s => s.deleteSession device
  | deleteSessions account => amend fun s => s.deleteSessions account
  | updateTrust device change => amend fun s => { s with trust := s.trust.update device change }
  | reprovision count now => reprovisionInPlace count now

/-- What a device keeps, and the randomness, after calls that succeed or fail. -/
def afterCalls (calls : List Call) (t : Store × Entropy) : Store × Entropy :=
  calls.foldl (fun t call => endState call.perform t) t

/-- What a device keeps before the first call and after each of them. -/
def stages : List Call → Store × Entropy → List Store
  | [], t => [t.1]
  | call :: calls, t => t.1 :: stages calls (endState call.perform t)

/-! ## What starting afresh comes to -/

variable {s s' : Store} {count : Nat} {now : Time} {e e' e'' : Entropy} {kind : PreKeyKind}

theorem reprovisionInPlace_eq (count : Nat) (now : Time) :
    reprovisionInPlace count now = update fun s => s.reprovision count now := by
  funext ⟨s, e⟩
  simp only [reprovisionInPlace, InPlace.look_bind, InPlace.draw_bind, update, reprovision]
  cases hring : SignedPreKeyRing.startingAt s.signedPreKeys.nextId now e with
  | error err e₁ => rw [bind_of_error hring]
  | ok ring e₁ =>
    rw [bind_of_ok hring]
    dsimp only
    cases hpool : newPool s.oneTimePreKeys.nextId count e₁ with
    | error err e₂ => rw [bind_of_error hpool]
    | ok pool e₂ =>
      rw [bind_of_ok hpool]
      dsimp only
      cases hidentity : IdentityKey.generate e₂ with
      | error err e₃ => rw [bind_of_error hidentity]
      | ok identity e₃ =>
        rw [bind_of_ok hidentity]
        rfl

/-! ## What a call does -/

/-- What a call can do: it fails, it changes the signed pre-keys, the one-time pre-keys, or sessions
and trust decisions, or the device starts afresh. -/
inductive Step (s : Store) (e : Entropy) : Store × Entropy → Prop where
  | failed {e' : Entropy} (later : Entropy.Later e e') : Step s e (s, e')
  | signed {made : Nat} {signedPreKeys : SignedPreKeyRing} {e' : Entropy}
      (later : Entropy.Later e e')
      (issues : Issues made s.signedPreKeys.nextId signedPreKeys.nextId s.signedPreKeys.numbers
        signedPreKeys.numbers) : Step s e ({ s with signedPreKeys }, e')
  | oneTime {made : Nat} {oneTimePreKeys : OneTimePreKeyPool} {e' : Entropy}
      (later : Entropy.Later e e')
      (issues : Issues made s.oneTimePreKeys.nextId oneTimePreKeys.nextId s.oneTimePreKeys.numbers
        oneTimePreKeys.numbers) : Step s e ({ s with oneTimePreKeys }, e')
  | records (sessions : Std.ExtTreeMap DeviceAddress Bytes) (trust : TrustTable) :
      Step s e ({ s with sessions, trust }, e)
  | afresh {count : Nat} {now : Time} {s' : Store} {e' : Entropy}
      (h : s.reprovision count now e = .ok s' e') : Step s e (s', e')

/-- An update is a step where it succeeds if it fails without a trace. -/
theorem step_update {f : Store → Draw Store} (hf : Draw.Advances (f s))
    (hok : ∀ s' e', f s e = .ok s' e' → Entropy.Later e e' → Step s e (s', e')) :
    Step s e (endState (update f) (s, e)) :=
  InPlace.endState_update_induction (fun s' e' h => hok s' e' h (hf.of_ok h)) fun _ _ h =>
    .failed (hf.of_error h)

theorem Call.step (call : Call) (s : Store) (e : Entropy) :
    Step s e (endState call.perform (s, e)) := by
  cases call with
  | createSignedPreKey now =>
    rw [perform]
    refine step_update ((s.createSignedPreKey_advances now).map Prod.snd) fun s' e' h hlater => ?_
    obtain ⟨p, hcreated, rfl⟩ := map_eq_ok_iff.mp h
    obtain ⟨⟨key, ring⟩, e₁, hcreate, hkept⟩ := bind_eq_ok_iff.mp hcreated
    cases hkept
    exact .signed hlater (SignedPreKeyRing.create_issues hcreate)
  | promoteSignedPreKey id =>
    rw [perform]
    refine step_update ((Draw.Advances.ofExcept _).map Prod.snd) fun s' e' h hlater => ?_
    obtain ⟨⟨previous, s'⟩, hpromoted, rfl⟩ := map_eq_ok_iff.mp h
    obtain ⟨ring, hpromote, rfl⟩ :=
      exists_of_promoteSignedPreKey (Draw.ofExcept_eq_ok_iff.mp hpromoted).1
    exact .signed hlater (SignedPreKeyRing.promote_drops hpromote).issues
  | expireSignedPreKey id expiry =>
    rw [perform]
    refine step_update (Draw.Advances.ofExcept _) fun s' e' h hlater => ?_
    obtain ⟨ring, hexpire, rfl⟩ := exists_of_expireSignedPreKey (Draw.ofExcept_eq_ok_iff.mp h).1
    exact .signed hlater (SignedPreKeyRing.expire_drops hexpire).issues
  | purgeSignedPreKeys now => exact .signed (.refl e) (s.signedPreKeys.purge_drops now).issues
  | removeOneTimePreKey id => exact .oneTime (.refl e) (s.oneTimePreKeys.remove_issues id)
  | replenish target =>
    rw [perform, endState_map, endState_replenish]
    exact .oneTime (OneTimePreKeyPool.replenish_later target _ e)
      (OneTimePreKeyPool.replenish_issues target _ e)
  | saveSession device record => exact .records _ s.trust
  | deleteSession device => exact .records _ s.trust
  | deleteSessions account => exact .records _ s.trust
  | updateTrust device change => exact .records s.sessions _
  | reprovision count now =>
    rw [perform, reprovisionInPlace_eq]
    exact step_update (s.reprovision_advances count now) fun s' e' h _ => .afresh h

/-! ## Numbers -/

/-- A device that starts afresh goes on counting, and only the new numbers are in use. -/
theorem numbers_of_reprovision (h : s.reprovision count now e = .ok s' e') (kind : PreKeyKind) :
    ∃ made, kind.numbers s' = Numbers.range (kind.nextId s) made ∧
      kind.nextId s' = kind.nextId s + UInt32.ofNat made := by
  obtain ⟨ring, e₁, pool, e₂, identity, hring, hpool, -, rfl⟩ := reprovision_eq_ok_iff.mp h
  cases kind with
  | signed => exact ⟨1, SignedPreKeyRing.numbers_startingAt hring⟩
  | oneTime => exact ⟨count, numbers_newPool hpool⟩

/-- A step gives numbers out one after the other, or none, and never out of turn. -/
theorem Step.issues {t : Store × Entropy} (h : Step s e t) (kind : PreKeyKind) :
    ∃ made, Issues made (kind.nextId s) (kind.nextId t.1) (kind.numbers s) (kind.numbers t.1) := by
  cases h with
  | failed later => exact ⟨0, .refl _ _⟩
  | signed later issues =>
    cases kind with
    | signed => exact ⟨_, issues⟩
    | oneTime => exact ⟨0, .refl _ _⟩
  | oneTime later issues =>
    cases kind with
    | signed => exact ⟨0, .refl _ _⟩
    | oneTime => exact ⟨_, issues⟩
  | records sessions trust =>
    cases kind with
    | signed => exact ⟨0, .refl _ _⟩
    | oneTime => exact ⟨0, .refl _ _⟩
  | afresh h =>
    obtain ⟨made, hnumbers, hnext⟩ := numbers_of_reprovision h kind
    refine ⟨made, hnext, ?_, ?_⟩
    · rw [hnumbers]
      exact Finset.subset_union_right
    · rw [hnumbers]

theorem numbers_subset_everHeld (kind : PreKeyKind) (calls : List Call) (t : Store × Entropy) :
    kind.numbers t.1 ⊆ kind.everHeld (stages calls t) := by
  cases calls with
  | nil => exact Finset.subset_union_left
  | cons call calls => exact Finset.subset_union_left

/-- The numbers that were ever in use are those from one up to the next one, if they were so at the
start. -/
theorem everHeld_stages (calls : List Call) {t : Store × Entropy} {given : Nat}
    {held : Finset UInt32} (hheld : held = Numbers.range 1 given)
    (hstart : kind.numbers t.1 ⊆ held) (hnext : kind.nextId t.1 = 1 + UInt32.ofNat given) :
    ∃ total, held ∪ kind.everHeld (stages calls t) = Numbers.range 1 total ∧
      kind.nextId (afterCalls calls t).1 = 1 + UInt32.ofNat total := by
  -- Induction on the calls, from any numbers held before.
  induction calls generalizing t given held with
  | nil =>
    refine ⟨given, ?_, hnext⟩
    change held ∪ (kind.numbers t.1 ∪ ∅) = _
    rw [Finset.union_empty, Finset.union_eq_left.mpr hstart, hheld]
  | cons call calls ih =>
    obtain ⟨made, hissues⟩ := (call.step t.1 t.2).issues kind
    obtain ⟨hgrown, hnext'⟩ := hissues.union (hheld ▸ hstart) hnext
    obtain ⟨total, htotal, hlast⟩ := ih (t := endState call.perform t) hgrown
      Finset.subset_union_right hnext'
    refine ⟨total, ?_, hlast⟩
    calc held ∪ (kind.numbers t.1 ∪ kind.everHeld (stages calls (endState call.perform t)))
        = held ∪ kind.everHeld (stages calls (endState call.perform t)) := by
          rw [← Finset.union_assoc, Finset.union_eq_left.mpr hstart]
      _ = (Numbers.range 1 given ∪ kind.numbers (endState call.perform t).1) ∪
            kind.everHeld (stages calls (endState call.perform t)) := by
          have hsubset := numbers_subset_everHeld kind calls (endState call.perform t)
          rw [Finset.union_assoc, Finset.union_eq_right.mpr hsubset, hheld]
      _ = Numbers.range 1 total := htotal

/-- A device that was just set up has the numbers from one up to the next one in use. -/
theorem numbers_of_provision (h : provision count now e = .ok s e') (kind : PreKeyKind) :
    ∃ given, kind.numbers s = Numbers.range 1 given ∧
      kind.nextId s = 1 + UInt32.ofNat given := by
  obtain ⟨pool, e₁, identity, e₂, ring, hpool, -, hring, rfl⟩ := provision_eq_ok_iff.mp h
  cases kind with
  | signed => exact ⟨1, SignedPreKeyRing.numbers_startingAt hring⟩
  | oneTime => exact ⟨count, numbers_newPool hpool⟩

/-! ## Identities -/

/-- The identity was drawn from the source, and the source was only used further since. -/
structure Seeded (source : Entropy) (t : Store × Entropy) : Prop where
  later : Entropy.Later source t.2
  identity : ∃ seed, source.Drew t.2.drawn seed ∧ t.1.identity = ⟨seed, seed⟩

/-- An identity that is kept was drawn before. -/
theorem Seeded.mono {source : Entropy} {t t' : Store × Entropy} (h : Seeded source t)
    (hlater : Entropy.Later t.2 t'.2) (hidentity : t'.1.identity = t.1.identity) :
    Seeded source t' := by
  obtain ⟨seed, hseed, hkept⟩ := h.identity
  exact ⟨h.later.trans hlater, seed, hseed.mono hlater.drawn, hidentity.trans hkept⟩

/-- A device that starts afresh draws its identity last. -/
theorem seeded_of_reprovision (h : s.reprovision count now e = .ok s' e') : Seeded e (s', e') := by
  have hlater : Entropy.Later e e' := (reprovision_advances s count now).of_ok h
  obtain ⟨ring, e₁, pool, e₂, identity, hring, hpool, hidentity, rfl⟩ := reprovision_eq_ok_iff.mp h
  obtain ⟨rfl, rfl⟩ := IdentityKey.eq_of_generate hidentity
  have hbefore : Entropy.Later e e₂ := by
    obtain ⟨-, rfl⟩ := SignedPreKeyRing.eq_of_startingAt hring
    exact e.later_next.trans ((newPool_advances _ _).of_ok hpool)
  exact ⟨hlater, _, hbefore.drew_next, rfl⟩

theorem seeded_of_provision (h : provision count now e = .ok s e') : Seeded e (s, e') := by
  obtain ⟨pool, e₁, identity, e₂, ring, hpool, hidentity, hring, rfl⟩ := provision_eq_ok_iff.mp h
  obtain ⟨rfl, rfl⟩ := IdentityKey.eq_of_generate hidentity
  obtain ⟨-, rfl⟩ := SignedPreKeyRing.eq_of_startingAt hring
  have hbefore : Entropy.Later e e₁ := (newPool_advances _ _).of_ok hpool
  have hlater := e₁.later_next.trans e₁.next.later_next
  exact ⟨hbefore.trans hlater, _, hbefore.drew_next.mono e₁.next.later_next.drawn, rfl⟩

theorem Step.later {t : Store × Entropy} (h : Step s e t) : Entropy.Later e t.2 := by
  cases h with
  | failed later => exact later
  | signed later issues => exact later
  | oneTime later issues => exact later
  | records sessions trust => exact .refl e
  | afresh h => exact (seeded_of_reprovision h).later

/-- A step keeps the identity or draws a new one. -/
theorem Step.seeded {source : Entropy} {t : Store × Entropy} (h : Step s e t)
    (hs : Seeded source (s, e)) : Seeded source t := by
  cases h with
  | failed later => exact hs.mono later rfl
  | signed later issues => exact hs.mono later rfl
  | oneTime later issues => exact hs.mono later rfl
  | records sessions trust => exact hs.mono (.refl e) rfl
  | afresh h =>
    obtain ⟨hlater, seed, ⟨k, hk, hlt, hseed⟩, hidentity⟩ := seeded_of_reprovision h
    rw [hs.later.supply] at hseed
    exact ⟨hs.later.trans hlater, seed, ⟨k, Nat.le_trans hs.later.drawn hk, hlt, hseed⟩, hidentity⟩

theorem later_afterCalls (calls : List Call) (t : Store × Entropy) :
    Entropy.Later t.2 (afterCalls calls t).2 := by
  induction calls generalizing t with
  | nil => exact .refl _
  | cons call calls ih => exact (call.step t.1 t.2).later.trans (ih _)

/-- Every identity that the device ever had was drawn before the end of the run. -/
theorem seeded_stages {source : Entropy} (calls : List Call) {t : Store × Entropy}
    (h : Seeded source t) :
    ∀ old ∈ stages calls t, Seeded source (old, (afterCalls calls t).2) := by
  induction calls generalizing t with
  | nil =>
    intro old hold
    obtain rfl := List.mem_singleton.mp hold
    exact h
  | cons call calls ih =>
    intro old hold
    rcases List.mem_cons.mp hold with rfl | hold
    · exact h.mono (later_afterCalls (call :: calls) t) rfl
    · exact ih ((call.step t.1 t.2).seeded h) old hold

/-- A new identity is not one of those before, if no two draws were answered alike. -/
theorem identity_ne {source : Entropy}
    (hdistinct : ∀ j k, j < k → k < e'.drawn → source.supply j 32 ≠ source.supply k 32)
    {old s' : Store} (hold : Seeded source (old, e)) (h : Seeded e (s', e')) :
    old.identity ≠ s'.identity := by
  obtain ⟨-, ⟨j, -, hbefore, rfl⟩, hj⟩ := hold.identity
  obtain ⟨-, ⟨k, hnew, hlt, rfl⟩, hk⟩ := h.identity
  intro heq
  have hseed := (IdentityKey.mk.inj (hj.symm.trans (heq.trans hk))).1
  rw [hold.later.supply] at hseed
  exact hdistinct j k (Nat.lt_of_lt_of_le hbefore hnew) hlt hseed

/-! ## All or nothing -/

/-- A device that started afresh has a new identity, one signed pre-key, which is in use, `count`
one-time pre-keys or one for each number that there is, no sessions, and its trust decisions. -/
structure Afresh (count : Nat) (s s' : Store) (e e' : Entropy) : Prop where
  identity : ∃ seed, e.Drew e'.drawn seed ∧ s'.identity = ⟨seed, seed⟩
  signed : ∃ key, s'.signedPreKeys.current? = .ok key ∧ s'.signedPreKeys.ids = [key.id]
  oneTime : s'.oneTimePreKeys.count = min count UInt32.size
  sessions : s'.sessions = ∅
  trust : s'.trust = s.trust

theorem afresh_of_reprovision (h : s.reprovision count now e = .ok s' e') :
    Afresh count s s' e e' := by
  have hidentity := (seeded_of_reprovision h).identity
  obtain ⟨ring, e₁, pool, e₂, identity, hring, hpool, -, rfl⟩ := reprovision_eq_ok_iff.mp h
  refine ⟨hidentity, ?_, ?_, rfl, rfl⟩
  · obtain ⟨rfl, -⟩ := SignedPreKeyRing.eq_of_startingAt hring
    refine ⟨⟨s.signedPreKeys.nextId, now, e.supply e.drawn 32⟩, ?_, rfl⟩
    unfold SignedPreKeyRing.current?
    rw [Std.ExtTreeMap.getElem?_insert_self]
  · rw [← OneTimePreKeyPool.card_numbers, (numbers_newPool hpool).1, Numbers.card_range]

/-- The numbers that a device that was set up ever had are those from one up to the next one. -/
theorem everHeld_of_provision (h : provision count now e = .ok s e') (calls : List Call)
    (kind : PreKeyKind) :
    ∃ total, kind.everHeld (stages calls (s, e')) = Numbers.range 1 total ∧
      kind.nextId (afterCalls calls (s, e')).1 = 1 + UInt32.ofNat total := by
  obtain ⟨given, hgiven, hfirst⟩ := numbers_of_provision h kind
  obtain ⟨total, htotal, hnext⟩ := everHeld_stages calls (t := (s, e')) hgiven
    (Finset.Subset.refl _) hfirst
  have hsubset := numbers_subset_everHeld kind calls (s, e')
  rw [Finset.union_eq_right.mpr hsubset] at htotal
  exact ⟨total, htotal, hnext⟩

/-- As long as not all numbers were used, the new numbers of a device that starts afresh are larger
than all that it ever had. -/
theorem lt_of_reprovision {held : Finset UInt32} {total : Nat}
    (hheld : held = Numbers.range 1 total) (hnext : kind.nextId s = 1 + UInt32.ofNat total)
    (h : s.reprovision count now e = .ok s' e')
    (hcard : (held ∪ kind.numbers s').card < UInt32.size) :
    ∀ id ∈ kind.numbers s', ∀ old ∈ held, old < id := by
  obtain ⟨made, hmade, -⟩ := numbers_of_reprovision h kind
  rw [hheld, hmade, hnext, ← Numbers.range_add] at hcard
  rw [hheld, hmade, hnext]
  intro id hid old hold
  obtain ⟨i, hi, rfl⟩ := Numbers.mem_range.mp hid
  obtain ⟨j, hj, rfl⟩ := Numbers.mem_range.mp hold
  rw [UInt32.add_assoc, ← UInt32.ofNat_add, UInt32.lt_iff_toNat_lt,
    Numbers.toNat_of_card hcard (by omega), Numbers.toNat_of_card hcard (by omega)]
  omega

/-- A messenger whose device fails to start afresh is left as it was. -/
theorem exists_of_onStore_eq_error {scene scene' : Scene} {err : Error}
    (h : Action.onStore (reprovisionInPlace count now) scene = .error err scene') :
    ∃ e', scene.messenger.store.reprovision count now scene.entropy = .error err e' ∧
      scene' = { scene with entropy := e' } := by
  simp only [Action.onStore, reprovisionInPlace_eq] at h
  split at h
  · cases h
  · next hupdate =>
    obtain ⟨e₁, hr, hpair⟩ := InPlace.update_eq_error_iff.mp hupdate
    cases hpair
    cases h
    exact ⟨_, hr, rfl⟩

/-- A device that starts afresh at any time of its life, and with randomness that may be refused at
any draw, either keeps everything or has only new keys and no sessions. The identity comes from a
draw that was not made before, and as long as not all numbers were used, the new numbers of each
kind are larger than all that the device ever had. A messenger that fails to start afresh keeps its
sessions and the note on an unfinished rotation. -/
theorem afresh_after_calls [CipherSuite] {count₀ : Nat} {now₀ : Time}
    (hstart : provision count₀ now₀ e = .ok s e') (calls : List Call) (count : Nat) (now : Time) :
    let t := afterCalls calls (s, e')
    let earlier := stages calls (s, e')
    (∀ err t', reprovisionInPlace count now t = .error err t' →
      t.1.reprovision count now t.2 = .error err t'.2 ∧ t'.1 = t.1) ∧
    (∀ t', reprovisionInPlace count now t = .ok () t' →
      t.1.reprovision count now t.2 = .ok t'.1 t'.2 ∧ Afresh count t.1 t'.1 t.2 t'.2 ∧
      ((∀ j k, j < k → k < t'.2.drawn → e.supply j 32 ≠ e.supply k 32) →
        ∀ old ∈ earlier, old.identity ≠ t'.1.identity) ∧
      ∀ kind : PreKeyKind, (kind.everHeld (earlier ++ [t'.1])).card < UInt32.size →
        ∀ id ∈ kind.numbers t'.1, ∀ old ∈ kind.everHeld earlier, old < id) ∧
    ∀ (scene scene' : Scene) (err : Error),
      Action.onStore (reprovisionInPlace scene.messenger.settings.maxOneTimePreKeys scene.now)
        scene = .error err scene' →
      Messenger.regenerate scene = .error err scene' ∧ scene'.messenger = scene.messenger := by
  intro t earlier
  refine ⟨fun err t' h => ?_, fun t' h => ?_, fun scene scene' err h => ?_⟩
  · rw [reprovisionInPlace_eq] at h
    obtain ⟨e₁, hr, rfl⟩ := InPlace.update_eq_error_iff.mp h
    exact ⟨hr, rfl⟩
  · rw [reprovisionInPlace_eq] at h
    have hr : t.1.reprovision count now t.2 = .ok t'.1 t'.2 := InPlace.update_eq_ok_iff.mp h
    refine ⟨hr, afresh_of_reprovision hr, fun hdistinct old hold => ?_, fun kind hcard => ?_⟩
    · exact identity_ne hdistinct (seeded_stages calls (seeded_of_provision hstart) old hold)
        (seeded_of_reprovision hr)
    · obtain ⟨total, htotal, hnext⟩ := everHeld_of_provision hstart calls kind
      rw [PreKeyKind.everHeld_append] at hcard
      exact lt_of_reprovision htotal hnext hr hcard
  · obtain ⟨e₁, hr, rfl⟩ := exists_of_onStore_eq_error h
    have hchange : Action.changeStore (fun store =>
        return ((), ← store.reprovision scene.messenger.settings.maxOneTimePreKeys scene.now))
          scene = .error err { scene with entropy := e₁ } :=
      Action.changeStore_of_error (bind_of_error hr)
    refine ⟨?_, rfl⟩
    rw [Messenger.regenerate, bind_get]
    exact bind_of_error hchange

section Example

attribute [local instance] CipherSuite.transparent

/-- A source that refuses its tenth draw. -/
def refusingTenth : Entropy := { Entropy.counting with refuses := fun attempt => attempt == 9 }

/-- Both kinds of pre-keys are made and given up, and a first attempt to start afresh gets no
randomness for the identity. -/
def busy : List Call :=
  [.createSignedPreKey .epoch, .promoteSignedPreKey 2, .expireSignedPreKey 1 .epoch,
    .purgeSignedPreKeys .epoch, .removeOneTimePreKey 1, .replenish 3, .reprovision 1 .epoch]

/-- A device that was just set up with two one-time pre-keys. -/
def settled? : Option (Store × Entropy) :=
  match provision 2 .epoch refusingTenth with
  | .ok s e => some (s, e)
  | .error _ _ => none

theorem provision_of_settled {t : Store × Entropy} (h : settled? = some t) :
    provision 2 .epoch refusingTenth = .ok t.1 t.2 := by
  unfold settled? at h
  split at h
  · next hprovision =>
    cases h
    exact hprovision
  · cases h

/-- The device had the signed pre-keys 1 and 2 and the one-time pre-keys 1 to 4. A second attempt to
start afresh succeeds, and the new ones are 3, and 5 and 6. -/
theorem afresh_after_busy :
    ∃ s e t', provision 2 .epoch refusingTenth = .ok s e ∧
      reprovisionInPlace 2 .epoch (afterCalls busy (s, e)) = .ok () t' ∧
      t'.1.signedPreKeys.ids = [3] ∧ t'.1.oneTimePreKeys.keys.keys = [5, 6] ∧
      (∀ old ∈ stages busy (s, e), old.identity ≠ t'.1.identity) ∧
      ∀ kind : PreKeyKind, ∀ id ∈ kind.numbers t'.1,
        ∀ old ∈ kind.everHeld (stages busy (s, e)), old < id := by
  have hsettled : settled?.any fun t =>
      let t' := endState (reprovisionInPlace 2 .epoch) (afterCalls busy t)
      let used (kind : PreKeyKind) := (kind.everHeld (stages busy t ++ [t'.1])).card
      answer? (reprovisionInPlace 2 .epoch) (afterCalls busy t) = some () ∧
        t'.1.signedPreKeys.ids = [3] ∧ t'.1.oneTimePreKeys.keys.keys = [5, 6] ∧
        (∀ k < t'.2.drawn, ∀ j < k, refusingTenth.supply j 32 ≠ refusingTenth.supply k 32) ∧
        used .signed < UInt32.size ∧ used .oneTime < UInt32.size := by
    decide +kernel
  obtain ⟨t, ht, hrun⟩ := (Option.any_eq_true _ _).mp hsettled
  obtain ⟨hanswer, hsigned, honeTime, hdistinct, hroom⟩ := of_decide_eq_true hrun
  obtain ⟨t', hok⟩ := exists_of_answer? hanswer
  rw [endState_of_ok hok] at hsigned honeTime hdistinct hroom
  have hstart := provision_of_settled ht
  obtain ⟨-, hafresh, -⟩ := afresh_after_calls hstart busy 2 .epoch
  obtain ⟨-, -, hidentity, hnumbers⟩ := hafresh t' hok
  refine ⟨t.1, t.2, t', hstart, hok, hsigned, honeTime,
    hidentity fun j k hjk hk => hdistinct k hk j hjk, fun kind => hnumbers kind ?_⟩
  cases kind with
  | signed => exact hroom.1
  | oneTime => exact hroom.2

end Example

end Store

end MultiDevice
