import MultiDevice.Trust

/-!
# Trust records as a function of what happened

Two kinds of events bear on the trust in a device: the user decides, and the device shows an
identity key. The record of a device depends on the events in their order, and its state on the last
one that counts: a decision, or a key of another point than the one on record.

## Main definitions

* `TrustEvent`, `TrustTable.see`: events, and the table after one
* `TrustEvent.keyAfter`: the key on record after an event
* `turns`: the decisions on a device and the changes of its key, in their order

## Main results

* `TrustTable.record_see`: the record of a device after one event
* `TrustTable.check_foldl_see`: the state of a device is that of its last turn
-/

namespace MultiDevice

/-- An event that bears on the trust in a device. -/
inductive TrustEvent where
  /-- The user decided on a device. -/
  | decided (device : DeviceAddress) (state : TrustState)
  /-- A device showed an identity key. -/
  | shown (device : DeviceAddress) (identity : PublicKey)

/-- A turn in the trust in one device. -/
inductive TrustTurn where
  /-- The user decided. -/
  | decided (state : TrustState)
  /-- The device showed a key of another point than the one on record. -/
  | rekeyed
  deriving DecidableEq

/-- The state that a device is in after a turn. -/
def TrustTurn.state : TrustTurn → TrustState
  | decided state => state
  | rekeyed => .undecided

namespace TrustEvent

/-- The identity key on record for a device after an event: the first key that the device shows is
put on record, and later a key of another point takes its place. -/
def keyAfter (device : DeviceAddress) (known : Option PublicKey) : TrustEvent → Option PublicKey
  | decided _ _ => known
  | shown d identity =>
    if d = device then
      match known with
      | none => some identity
      | some k => if k.SamePoint identity then some k else some identity
    else known

/-- The turn that an event is for a device, if it is one. -/
def turn? (device : DeviceAddress) (known : Option PublicKey) : TrustEvent → Option TrustTurn
  | decided d state => if d = device then some (.decided state) else none
  | shown d identity =>
    if d = device then
      match known with
      | none => none
      | some k => if k.SamePoint identity then none else some .rekeyed
    else none

end TrustEvent

/-- The turns among some events, the oldest first, where `known` is the key on record before
them. -/
def turns (device : DeviceAddress) : Option PublicKey → List TrustEvent → List TrustTurn
  | _, [] => []
  | known, event :: events =>
    (event.turn? device known).toList ++ turns device (event.keyAfter device known) events

namespace TrustTable

/-- The table after an event. -/
def see (t : TrustTable) : TrustEvent → TrustTable
  | .decided device state => t.decide device state
  | .shown device identity =>
    match observe device identity t with
    | .ok () t => t
    | .error _ t => t

theorem record_insert (t : TrustTable) (device d : DeviceAddress) (r : TrustRecord) :
    record (t.insert device r) d = if device = d then r else record t d := by
  simp only [record, Std.ExtTreeMap.getElem?_insert, Std.LawfulEqCmp.compare_eq_iff_eq]
  split
  · rfl
  · rfl

theorem record_update (t : TrustTable) (device d : DeviceAddress)
    (change : TrustRecord → TrustRecord) :
    record (t.update device change) d =
      if device = d then change (record t device) else record t d := by
  rw [update, record_insert]

/-- The table after a device showed a key. -/
theorem see_shown (t : TrustTable) (device : DeviceAddress) (identity : PublicKey) :
    t.see (.shown device identity) =
      match (record t device).identity with
      | none => t.update device fun r => { r with identity := some identity }
      | some known =>
        if known.SamePoint identity then t
        else t.insert device { state := .undecided, identity := some identity } := by
  simp only [see, observe]
  cases (record t device).identity with
  | none => rfl
  | some known => by_cases hp : known.SamePoint identity <;> simp [hp]

/-- After an event a device is in the state of the turn that the event is, or in the state it was
in, and the key on record is as the event says. -/
theorem record_see (t : TrustTable) (device : DeviceAddress) (event : TrustEvent) :
    record (t.see event) device =
      { state := ((event.turn? device (record t device).identity).map TrustTurn.state).getD
          (record t device).state
        identity := event.keyAfter device (record t device).identity } := by
  cases event with
  | decided d state =>
    simp only [see, decide, record_update, TrustEvent.turn?, TrustEvent.keyAfter]
    by_cases hd : d = device
    · subst hd
      simp [TrustTurn.state]
    · simp [hd]
  | shown d identity =>
    rw [see_shown]
    by_cases hd : d = device
    · subst hd
      simp only [TrustEvent.turn?, TrustEvent.keyAfter, if_pos]
      cases hk : (record t d).identity with
      | none => simp [record_update]
      | some known =>
        by_cases hp : known.SamePoint identity
        · simp [hp, ← hk]
        · simp [hp, record_insert, TrustTurn.state]
    · simp only [TrustEvent.turn?, TrustEvent.keyAfter, if_neg hd]
      split
      · simp [record_update, hd]
      · split
        · rfl
        · simp [record_insert, hd]

/-- What a device shows changes the record of no other device. -/
theorem record_see_shown_of_ne (t : TrustTable) {device d : DeviceAddress} (identity : PublicKey)
    (h : d ≠ device) : record (t.see (.shown d identity)) device = record t device := by
  rw [record_see]
  simp only [TrustEvent.turn?, TrustEvent.keyAfter, if_neg h]
  rfl

/-- A device that showed a key has a key of this point on record. -/
theorem exists_key_of_see_shown (t : TrustTable) (device : DeviceAddress) (identity : PublicKey) :
    ∃ known, (record (t.see (.shown device identity)) device).identity = some known ∧
      known.SamePoint identity := by
  rw [record_see]
  simp only [TrustEvent.keyAfter, if_pos]
  cases (record t device).identity with
  | none => exact ⟨identity, rfl, PublicKey.SamePoint.refl _⟩
  | some known =>
    by_cases hp : known.SamePoint identity
    · exact ⟨known, if_pos hp, hp⟩
    · exact ⟨identity, if_neg hp, PublicKey.SamePoint.refl _⟩

/-- A key that is accepted is the first one, or of the point on record; the decision stands. -/
theorem record_of_observe_eq_ok {t t' : TrustTable} {device : DeviceAddress} {identity : PublicKey}
    (h : observe device identity t = .ok () t') :
    ∃ known, record t' device = { state := check t device, identity := some known } ∧
      known.SamePoint identity ∧
      ∀ known', (record t device).identity = some known' → known' = known := by
  unfold observe at h
  cases hk : (record t device).identity with
  | none =>
    rw [hk] at h
    cases h
    refine ⟨identity, ?_, PublicKey.SamePoint.refl _, fun _ heq => nomatch heq⟩
    rw [record_update, if_pos rfl]
    rfl
  | some known =>
    rw [hk] at h
    simp only at h
    split at h
    · next hp =>
      cases h
      refine ⟨known, ?_, hp, fun known' heq => (Option.some.inj heq).symm⟩
      rw [check, ← hk]
    · cases h

/-- After some events a device is in the state of its last turn, or in the state it was in if it had
none. -/
theorem check_foldl_see (t : TrustTable) (device : DeviceAddress) (events : List TrustEvent) :
    check (events.foldl see t) device =
      ((turns device (record t device).identity events).getLast?.map TrustTurn.state).getD
        (check t device) := by
  induction events generalizing t with
  | nil => rfl
  | cons event events ih =>
    rw [List.foldl_cons, ih, check, check, record_see]
    simp only [turns]
    cases event.turn? device (record t device).identity with
    | none => simp
    | some turn => cases turns device _ events <;> simp [List.getLast?_cons]

end TrustTable

/-- Where nothing was decided on a device, its only turns are changes of its key. -/
theorem eq_rekeyed_of_mem_turns {device : DeviceAddress} {known : Option PublicKey}
    {events : List TrustEvent} (h : ∀ state, .decided device state ∉ events) {turn : TrustTurn}
    (ht : turn ∈ turns device known events) : turn = .rekeyed := by
  induction events generalizing known with
  | nil => cases ht
  | cons event events ih =>
    have hrest : ∀ state, .decided device state ∉ events := fun state hm =>
      h state (List.mem_cons_of_mem _ hm)
    rcases List.mem_append.mp ht with ht | ht
    · have heq := Option.mem_toList.mp ht
      cases event with
      | decided d state =>
        by_cases hd : d = device
        · subst hd
          exact absurd List.mem_cons_self (h state)
        · simp [TrustEvent.turn?, hd] at heq
      | shown d identity =>
        simp only [TrustEvent.turn?] at heq
        split at heq
        · cases known with
          | none => cases heq
          | some k =>
            simp only at heq
            split at heq <;> cases heq
            rfl
        · cases heq
    · exact ih hrest ht

/-- Where nothing was decided on a device, its state stays or falls back to undecided. -/
theorem TrustTable.check_foldl_see_of_not_decided (t : TrustTable) {device : DeviceAddress}
    {events : List TrustEvent} (h : ∀ state, .decided device state ∉ events) :
    check (events.foldl see t) device = check t device ∨
      check (events.foldl see t) device = .undecided := by
  rw [check_foldl_see]
  cases hl : (turns device (record t device).identity events).getLast? with
  | none => exact .inl rfl
  | some turn =>
    rw [eq_rekeyed_of_mem_turns h (List.mem_of_getLast? hl)]
    exact .inr rfl

end MultiDevice
