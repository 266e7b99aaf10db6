import MultiDevice.Proofs.Session.Record

/-!
# Trying the sessions of a record

A record tries its sessions in place and in order: the current one, then the superseded ones at one
position after the other. A session that reads the message is changed, taken out and put in front,
and the one that was current is put before the superseded ones. As long as no more are kept than
allowed, nothing is cut off at the end, and the sessions are one list out of which the first that
reads the message moves to the front.

## Main definitions

* `Session.Accepts`: a session reads a message on its own
* `SessionRecord.tryFrom`, `SessionRecord.decryptInPlace`: trying the sessions, position by position
* `SessionRecord.Refused`: sessions that do not read a message, one after the other
* `Session.Becomes`, `Session.Course`: what becomes of a session that reads messages
* `SessionRecord.Tracks`: what becomes of the sessions of a record

## Main results

* `SessionRecord.decryptInPlace_eq`: trying in place comes to what `decrypt` says
* `SessionRecord.readFirst_eq_ok_iff`: the first session that reads a message
* `SessionRecord.decrypt_eq_readFirst`: nothing is cut off
* `SessionRecord.Tracks.read`, `SessionRecord.Tracks.receive`: one message, and any number of them
* `SessionRecord.decrypt_spec`: what messages do to the sessions of a record
-/

namespace MultiDevice

section Reading

variable [CipherSuite] {message : RatchetMessage} {e e' : Entropy}

namespace Session

/-- The session reads the message, with some randomness. -/
def Accepts (s : Session) (message : RatchetMessage) : Prop :=
  ∃ e a e', s.decrypt message e = .ok a e'

/-- A session that accepts a message reads it with any randomness that is to be had. -/
theorem Accepts.exists_decrypt {s : Session} (h : s.Accepts message)
    (he : e.refuses e.attempts = false) : ∃ a e', s.decrypt message e = .ok a e' := by
  obtain ⟨e₀, ⟨plaintext, s'⟩, e₁, hd⟩ := h
  obtain ⟨ratchet, hd, -⟩ := decrypt_eq_ok_iff.mp hd
  obtain ⟨ratchet', e₂, hd'⟩ := Ratchet.exists_decrypt_of_draws hd he
  exact ⟨(plaintext, _), e₂, decrypt_eq_ok_iff.mpr ⟨ratchet', hd', rfl⟩⟩

/-- Reading does not change whose session it is. -/
theorem remoteIdentity_of_decrypt {s s' : Session} {plaintext : Bytes}
    (h : s.decrypt message e = .ok (plaintext, s') e') : s'.remoteIdentity = s.remoteIdentity := by
  obtain ⟨ratchet, -, rfl⟩ := decrypt_eq_ok_iff.mp h
  rfl

end Session

namespace SessionRecord

variable {baseKey : Option PublicKey}

/-! ## Trying in place -/

/-- Tries the superseded sessions from a position on. The one that reads the message is changed,
taken out and made current. `failure` is the last failure so far. -/
def tryFrom (message : RatchetMessage) (baseKey : Option PublicKey) (failure : Error)
    (index : Nat) (r : SessionRecord) (e : Entropy) :
    EStateM.Result Error (SessionRecord × Entropy) (Bytes × PublicKey) :=
  if h : index < r.previous.length then
    if agreedWith baseKey r.previous[index] then
      match r.previous[index].decrypt message e with
      | .ok (plaintext, session) e =>
        let tried := r.previous.set index session
        .ok (plaintext, session.remoteIdentity)
          (({ r with previous := tried.eraseIdx index }).promote session, e)
      | .error err e => tryFrom message baseKey err (index + 1) r e
    else tryFrom message baseKey failure (index + 1) r e
  else .error failure (r, e)
termination_by r.previous.length - index

/-- Reads a message in place: the current session is tried first, then the superseded ones. -/
def decryptInPlace (message : RatchetMessage) (baseKey : Option PublicKey) :
    EStateM Error (SessionRecord × Entropy) (Bytes × PublicKey) := fun (r, e) =>
  if agreedWith baseKey r.current then
    match r.current.decrypt message e with
    | .ok (plaintext, session) e =>
      .ok (plaintext, session.remoteIdentity) ({ r with current := session }, e)
    | .error err e => r.tryFrom message baseKey err 0 e
  else r.tryFrom message baseKey .noMatchingState 0 e

/-- What trying comes to once `before` was passed over: the session that reads the message goes to
the front, or the record stays as it is. -/
def settle (r : SessionRecord) (before : List Session) :
    EStateM.Result Error Entropy Reading →
      EStateM.Result Error (SessionRecord × Entropy) (Bytes × PublicKey)
  | .ok reading e =>
    .ok (reading.plaintext, reading.session.remoteIdentity)
      (({ r with previous := before ++ reading.others }).promote reading.session, e)
  | .error err e => .error err (r, e)

omit [CipherSuite] in
/-- A session that was passed over stays in its place. -/
theorem settle_map_past (r : SessionRecord) (before : List Session) (s : Session)
    (x : Draw Reading) (e : Entropy) :
    r.settle before ((Reading.past s <$> x) e) = r.settle (before ++ [s]) (x e) := by
  cases h : x e with
  | ok reading t =>
    rw [map_of_ok h, settle, settle, Reading.past, List.append_assoc]
    rfl
  | error err t =>
    rw [map_of_error h]
    rfl

/-- Trying from a position on comes to reading among the sessions from there on. -/
theorem tryFrom_eq (message : RatchetMessage) (baseKey : Option PublicKey) (failure : Error)
    (index : Nat) (r : SessionRecord) (e : Entropy) :
    r.tryFrom message baseKey failure index e =
      r.settle (r.previous.take index)
        (readFirst message baseKey failure (r.previous.drop index) e) := by
  fun_induction tryFrom message baseKey failure index r e with
  | case1 failure index e h ha plaintext session e₁ hd tried =>
    rw [List.drop_eq_getElem_cons h, readFirst_of_ok ha hd, settle, List.eraseIdx_set_eq,
      List.eraseIdx_eq_take_drop_succ]
  | case2 failure index e h ha err e₁ hd ih =>
    rw [ih, List.drop_eq_getElem_cons h, readFirst_of_error ha hd, settle_map_past,
      List.take_append_getElem]
  | case3 failure index e h ha ih =>
    rw [ih, List.drop_eq_getElem_cons h, readFirst_of_not_agreed ha, settle_map_past,
      List.take_append_getElem]
  | case4 failure index e h =>
    rw [List.drop_eq_nil_of_le (Nat.le_of_not_lt h)]
    rfl

/-- Trying the sessions in place comes to what `decrypt` says, and a record that does not read the
message stays as it is. -/
theorem decryptInPlace_eq (message : RatchetMessage) (baseKey : Option PublicKey)
    (r : SessionRecord) (e : Entropy) :
    decryptInPlace message baseKey (r, e) =
      match r.decrypt message baseKey e with
      | .ok (plaintext, identity, r') e => .ok (plaintext, identity) (r', e)
      | .error err e => .error err (r, e) := by
  have archived : ∀ failure e, r.tryFrom message baseKey failure 0 e =
      match r.decryptArchived message baseKey failure e with
      | .ok (plaintext, identity, r') e => .ok (plaintext, identity) (r', e)
      | .error err e => .error err (r, e) := by
    intro failure e
    rw [tryFrom_eq, List.drop_zero, decryptArchived]
    cases h : readFirst message baseKey failure r.previous e with
    | ok reading t =>
      rw [bind_of_ok h]
      rfl
    | error err t =>
      rw [bind_of_error h]
      rfl
  unfold decryptInPlace decrypt
  dsimp only
  split
  · cases h : r.current.decrypt message e with
    | ok a t => rfl
    | error err t => exact archived err t
  · exact archived _ e

/-! ## The first session that reads a message -/

/-- Those of the sessions that were agreed with `baseKey` refuse the message one after the other,
each with the source that the ones before it left. -/
inductive Refused (message : RatchetMessage) (baseKey : Option PublicKey) :
    List Session → Entropy → Entropy → Prop
  /-- No session is left. -/
  | nil (e : Entropy) : Refused message baseKey [] e e
  /-- The session was not agreed with `baseKey` and is not tried. -/
  | passed {s : Session} {rest : List Session} {e e' : Entropy}
      (ha : ¬ agreedWith baseKey s = true) (hrest : Refused message baseKey rest e e') :
      Refused message baseKey (s :: rest) e e'
  /-- The session refuses the message. -/
  | tried {s : Session} {rest : List Session} {e e₁ e' : Entropy} {err : Error}
      (ha : agreedWith baseKey s = true) (hd : s.decrypt message e = .error err e₁)
      (hrest : Refused message baseKey rest e₁ e') : Refused message baseKey (s :: rest) e e'

/-- Whoever refused a message with a source that refuses nothing does not accept it. -/
theorem Refused.not_accepts {sessions : List Session} (h : Refused message baseKey sessions e e')
    (he : ∀ n, e.refuses n = false) {s : Session} (hs : s ∈ sessions)
    (ha : agreedWith baseKey s = true) : ¬ s.Accepts message := by
  induction h with
  | nil e => cases hs
  | passed hnot hrest ih =>
    rcases List.mem_cons.mp hs with rfl | hs
    · exact absurd ha hnot
    · exact ih he hs
  | tried _ hd hrest ih =>
    rcases List.mem_cons.mp hs with rfl | hs
    · intro haccepts
      obtain ⟨a, t, hok⟩ := haccepts.exists_decrypt (he _)
      cases hok.symm.trans hd
    · have hlater := (Session.decrypt_advances _ message).of_error hd
      exact ih (fun n => hlater.refuses ▸ he n) hs

/-- **The first session that reads a message** does so after those before it refused the message,
and the others stay in their order. -/
theorem readFirst_eq_ok_iff {sessions : List Session} {failure : Error} {reading : Reading} :
    readFirst message baseKey failure sessions e = .ok reading e' ↔
      ∃ front s back e₁, sessions = front ++ s :: back ∧ Refused message baseKey front e e₁ ∧
        agreedWith baseKey s = true ∧
        s.decrypt message e₁ = .ok (reading.plaintext, reading.session) e' ∧
        reading.others = front ++ back := by
  constructor
  · intro h
    induction sessions generalizing failure e reading with
    | nil => cases h
    | cons s rest ih =>
      by_cases ha : agreedWith baseKey s = true
      · cases hd : s.decrypt message e with
        | ok a t =>
          cases (readFirst_of_ok ha hd).symm.trans h
          exact ⟨[], s, rest, e, rfl, .nil e, ha, hd, rfl⟩
        | error err t =>
          obtain ⟨reading', hrest, rfl⟩ :=
            map_eq_ok_iff.mp ((readFirst_of_error ha hd).symm.trans h)
          obtain ⟨front, s', back, e₁, rfl, hrefused, ha', hd', hothers⟩ := ih hrest
          exact ⟨s :: front, s', back, e₁, rfl, .tried ha hd hrefused, ha', hd',
            congrArg (s :: ·) hothers⟩
      · obtain ⟨reading', hrest, rfl⟩ :=
          map_eq_ok_iff.mp ((readFirst_of_not_agreed ha).symm.trans h)
        obtain ⟨front, s', back, e₁, rfl, hrefused, ha', hd', hothers⟩ := ih hrest
        exact ⟨s :: front, s', back, e₁, rfl, .passed ha hrefused, ha', hd',
          congrArg (s :: ·) hothers⟩
  · rintro ⟨front, s, back, e₁, rfl, hrefused, ha, hd, hothers⟩
    obtain ⟨plaintext, session, others⟩ := reading
    cases hothers
    induction hrefused generalizing failure with
    | nil e => exact readFirst_of_ok ha hd
    | passed hnot hrest ih =>
      exact (readFirst_of_not_agreed hnot).trans (map_of_ok (ih hd))
    | tried ha' hd' hrest ih => exact (readFirst_of_error ha' hd').trans (map_of_ok (ih hd))

/-- A message that is not read was refused by every session that was tried. -/
theorem refused_of_readFirst_eq_error {sessions : List Session} {failure err : Error}
    (h : readFirst message baseKey failure sessions e = .error err e') :
    Refused message baseKey sessions e e' := by
  induction sessions generalizing failure e with
  | nil =>
    cases h
    exact .nil e'
  | cons s rest ih =>
    by_cases ha : agreedWith baseKey s = true
    · cases hd : s.decrypt message e with
      | ok a t => cases (readFirst_of_ok ha hd).symm.trans h
      | error err t =>
        exact .tried ha hd (ih (map_eq_error_iff.mp ((readFirst_of_error ha hd).symm.trans h)))
    · exact .passed ha (ih (map_eq_error_iff.mp ((readFirst_of_not_agreed ha).symm.trans h)))

/-- The record with the session that read a message in front. -/
def Reading.record (reading : Reading) : SessionRecord :=
  { current := reading.session, previous := reading.others }

/-- As long as no more sessions are kept than allowed, none is cut off: reading moves the first
session that reads the message to the front. -/
theorem decrypt_eq_readFirst {r : SessionRecord} (hr : r.previous.length ≤ archiveLimit)
    (message : RatchetMessage) (baseKey : Option PublicKey) :
    r.decrypt message baseKey =
      (fun reading => (reading.plaintext, reading.session.remoteIdentity, reading.record)) <$>
        readFirst message baseKey .noMatchingState r.sessions := by
  have archived : ∀ failure e, r.decryptArchived message baseKey failure e =
      ((fun reading : Reading =>
          (reading.plaintext, reading.session.remoteIdentity, reading.record)) <$>
        (Reading.past r.current <$> readFirst message baseKey failure r.previous)) e := by
    intro failure e
    cases h : readFirst message baseKey failure r.previous e with
    | ok reading t =>
      rw [map_of_ok (map_of_ok h), decryptArchived, bind_of_ok h]
      obtain ⟨front, s, back, e₁, hprevious, -, -, -, hothers⟩ := readFirst_eq_ok_iff.mp h
      have hlength : (r.current :: reading.others).length ≤ archiveLimit := by
        rw [hprevious, List.length_append, List.length_cons] at hr
        rw [hothers, List.length_cons, List.length_append]
        exact hr
      rw [promote, List.take_of_length_le hlength]
      rfl
    | error err t => rw [map_of_error (map_of_error h), decryptArchived, bind_of_error h]
  funext e
  rw [sessions]
  by_cases ha : agreedWith baseKey r.current = true
  · cases hd : r.current.decrypt message e with
    | ok a t =>
      rw [map_of_ok (readFirst_of_ok ha hd)]
      simp only [decrypt, if_pos ha, hd]
      rfl
    | error err t =>
      rw [map_congr _ (readFirst_of_error ha hd), ← archived]
      simp only [decrypt, if_pos ha, hd]
  · rw [map_congr _ (readFirst_of_not_agreed ha), ← archived]
    simp only [decrypt, if_neg ha]

/-- **How a record reads a message**, as long as no more sessions are kept than allowed. -/
theorem decrypt_eq_ok_iff {r r' : SessionRecord} (hr : r.previous.length ≤ archiveLimit)
    {plaintext : Bytes} {identity : PublicKey} :
    r.decrypt message baseKey e = .ok (plaintext, identity, r') e' ↔
      ∃ front s back e₁, r.sessions = front ++ s :: back ∧ Refused message baseKey front e e₁ ∧
        agreedWith baseKey s = true ∧ s.decrypt message e₁ = .ok (plaintext, r'.current) e' ∧
        identity = s.remoteIdentity ∧ r'.previous = front ++ back := by
  rw [decrypt_eq_readFirst hr, map_eq_ok_iff]
  constructor
  · rintro ⟨reading, hread, heq⟩
    obtain ⟨front, s, back, e₁, hsessions, hrefused, ha, hd, hothers⟩ :=
      readFirst_eq_ok_iff.mp hread
    cases heq
    exact ⟨front, s, back, e₁, hsessions, hrefused, ha, hd, Session.remoteIdentity_of_decrypt hd,
      hothers⟩
  · rintro ⟨front, s, back, e₁, hsessions, hrefused, ha, hd, rfl, hprevious⟩
    refine ⟨⟨plaintext, r'.current, r'.previous⟩,
      readFirst_eq_ok_iff.mpr ⟨front, s, back, e₁, hsessions, hrefused, ha, hd, hprevious⟩, ?_⟩
    rw [Session.remoteIdentity_of_decrypt hd]
    rfl

/-- With a source that refuses nothing, a message is read if and only if some session accepts it. -/
theorem exists_decrypt_iff {r : SessionRecord} (hr : r.previous.length ≤ archiveLimit)
    (he : ∀ n, e.refuses n = false) :
    (∃ answer t, r.decrypt message baseKey e = .ok answer t) ↔
      ∃ s ∈ r.sessions, agreedWith baseKey s = true ∧ s.Accepts message := by
  constructor
  · rintro ⟨⟨plaintext, identity, r'⟩, e', h⟩
    obtain ⟨front, s, back, e₁, hsessions, -, ha, hd, -⟩ := (decrypt_eq_ok_iff hr).mp h
    refine ⟨s, ?_, ha, e₁, _, e', hd⟩
    rw [hsessions]
    exact List.mem_append_right _ List.mem_cons_self
  · rintro ⟨s, hs, ha, haccepts⟩
    rw [decrypt_eq_readFirst hr]
    cases hread : readFirst message baseKey .noMatchingState r.sessions e with
    | ok reading t => exact ⟨_, t, map_of_ok hread⟩
    | error err t =>
      exact absurd haccepts ((refused_of_readFirst_eq_error hread).not_accepts he hs ha)

end SessionRecord

/-! ## What becomes of the sessions -/

namespace Session

/-- The session becomes another one by reading messages one after the other. -/
inductive Becomes (s : Session) : List RatchetMessage → Session → Prop
  /-- No message is read. -/
  | refl : Becomes s [] s
  /-- One more message is read. -/
  | read {s₁ s₂ : Session} {messages : List RatchetMessage} {message : RatchetMessage}
      {plaintext : Bytes} {e e' : Entropy} (h : Becomes s messages s₁)
      (hd : s₁.decrypt message e = .ok (plaintext, s₂) e') : Becomes s (messages ++ [message]) s₂

/-- A session, the messages that it read, and what it became. -/
structure Course where
  /-- The session at the beginning. -/
  first : Session
  /-- The messages that it read, in their order. -/
  messages : List RatchetMessage
  /-- The session after these messages. -/
  last : Session
  becomes : first.Becomes messages last

/-- A session that has read nothing yet. -/
def Course.start (s : Session) : Course := ⟨s, [], s, .refl⟩

/-- The course of a session that reads one more message. -/
def Course.read (c : Course) {s : Session} {plaintext : Bytes}
    (hd : c.last.decrypt message e = .ok (plaintext, s) e') : Course :=
  ⟨c.first, c.messages ++ [message], s, c.becomes.read hd⟩

end Session

namespace SessionRecord

open Session (Course)

variable {r r₁ r₂ : SessionRecord} {messages : List RatchetMessage} {baseKey : Option PublicKey}

/-- The sessions of one record became those of another one, in some order, by reading messages:
each session read its own part of them in their order, and each message was read by one session. -/
def Tracks (r : SessionRecord) (messages : List RatchetMessage) (r' : SessionRecord) : Prop :=
  ∃ courses : List Course, courses.map Course.first = r.sessions ∧
    (courses.map Course.last).Perm r'.sessions ∧
    (∀ c ∈ courses, c.messages.Sublist messages) ∧
    (courses.flatMap Course.messages).Perm messages

theorem Tracks.refl (r : SessionRecord) : r.Tracks [] r := by
  refine ⟨r.sessions.map Course.start, ?_, ?_, ?_, ?_⟩
  · simp [Function.comp_def, Course.start]
  · simp [Function.comp_def, Course.start]
  · simp [Course.start]
  · simp [List.flatMap, Function.comp_def, Course.start]

/-- No session is lost and none is added. -/
theorem Tracks.length_previous (h : r.Tracks messages r₁) :
    r₁.previous.length = r.previous.length := by
  obtain ⟨courses, hfirst, hlast, -⟩ := h
  have hlength := hlast.length_eq
  rw [List.length_map, ← List.length_map Course.first, hfirst] at hlength
  exact (Nat.succ.inj hlength).symm

/-- **One message** changes the session that reads it, and no other. -/
theorem Tracks.read (h : r.Tracks messages r₁) (hr : r.previous.length ≤ archiveLimit)
    {plaintext : Bytes} {identity : PublicKey}
    (hread : r₁.decrypt message baseKey e = .ok (plaintext, identity, r₂) e') :
    r.Tracks (messages ++ [message]) r₂ := by
  obtain ⟨front, s, back, e₁, hsessions, -, -, hd, -, hprevious⟩ :=
    (decrypt_eq_ok_iff (h.length_previous ▸ hr)).mp hread
  obtain ⟨courses, hfirst, hlast, hordered, hmessages⟩ := h
  have hmem : s ∈ courses.map Course.last := by
    rw [hlast.mem_iff, hsessions]
    exact List.mem_append_right _ List.mem_cons_self
  obtain ⟨c, hc, rfl⟩ := List.mem_map.mp hmem
  obtain ⟨before, after, rfl⟩ := List.append_of_mem hc
  refine ⟨before ++ c.read hd :: after, ?_, ?_, ?_, ?_⟩
  · rw [← hfirst]
    simp [Course.read]
  · have hothers : (before.map Course.last ++ after.map Course.last).Perm (front ++ back) := by
      rw [hsessions, List.map_append, List.map_cons] at hlast
      exact (List.perm_middle.symm.trans (hlast.trans List.perm_middle)).cons_inv
    rw [List.map_append, List.map_cons, sessions, hprevious]
    exact List.perm_middle.trans (hothers.cons _)
  · intro c' hc'
    have hlonger : messages.Sublist (messages ++ [message]) := List.sublist_append_left _ _
    rcases List.mem_append.mp hc' with hc' | hc'
    · exact (hordered c' (List.mem_append_left _ hc')).trans hlonger
    · rcases List.mem_cons.mp hc' with rfl | hc'
      · exact (hordered c hc).append (List.Sublist.refl [message])
      · exact (hordered c' (List.mem_append_right _ (List.mem_cons_of_mem _ hc'))).trans hlonger
  · rw [List.flatMap_append, List.flatMap_cons] at hmessages ⊢
    refine List.Perm.trans ?_ (hmessages.append_right [message])
    rw [Course.read, List.append_assoc, List.append_assoc, List.append_assoc]
    exact (List.perm_append_comm.append_left _).append_left _

/-- The record and the source after messages arrived one after the other, each of them for the
sessions agreed with some key, or for all. -/
def receive : List (RatchetMessage × Option PublicKey) → SessionRecord × Entropy →
    SessionRecord × Entropy
  | [], t => t
  | (message, baseKey) :: rest, t =>
    receive rest (endState (decryptInPlace message baseKey) t)

/-- Those of the messages that are read. -/
def accepted : List (RatchetMessage × Option PublicKey) → SessionRecord × Entropy →
    List RatchetMessage
  | [], _ => []
  | (message, baseKey) :: rest, t =>
    ((answer? (decryptInPlace message baseKey) t).map fun _ => message).toList ++
      accepted rest (endState (decryptInPlace message baseKey) t)

/-- **Any number of messages.** -/
theorem Tracks.receive {t : SessionRecord × Entropy} (h : r.Tracks messages t.1)
    (hr : r.previous.length ≤ archiveLimit)
    (arrivals : List (RatchetMessage × Option PublicKey)) :
    r.Tracks (messages ++ accepted arrivals t) (receive arrivals t).1 := by
  induction arrivals generalizing t messages with
  | nil => exact (List.append_nil messages).symm ▸ h
  | cons arrival rest ih =>
    obtain ⟨message, baseKey⟩ := arrival
    obtain ⟨r₁, e⟩ := t
    have hplace := decryptInPlace_eq message baseKey r₁ e
    unfold accepted SessionRecord.receive
    rw [← List.append_assoc]
    refine ih ?_
    cases hd : r₁.decrypt message baseKey e with
    | ok a e' =>
      obtain ⟨plaintext, identity, r₂⟩ := a
      rw [hd] at hplace
      rw [answer?_of_ok hplace, endState_of_ok hplace]
      exact h.read hr hd
    | error err e' =>
      rw [hd] at hplace
      rw [answer?_of_error hplace, endState_of_error hplace]
      exact (List.append_nil messages).symm ▸ h

/-- **What messages do to the sessions of a record** that keeps no more of them than allowed.

A message is read by the first session, the current one before the superseded ones, that was agreed
with `baseKey` and does not refuse it: that session is current afterwards, and the others follow in
the order in which they were. If the source of randomness refuses nothing, some session reads the
message if and only if one accepts it on its own, and those before the one that reads it do not. A
message that is not read leaves the record as it was. So in any course of messages no session is
lost, doubled or changed but by the messages that it reads itself. -/
theorem decrypt_spec (hr : r.previous.length ≤ archiveLimit) :
    (∀ message baseKey e,
      (∀ plaintext identity r' e',
        r.decrypt message baseKey e = .ok (plaintext, identity, r') e' ↔
          ∃ front s back e₁, r.sessions = front ++ s :: back ∧
            Refused message baseKey front e e₁ ∧ agreedWith baseKey s = true ∧
            s.decrypt message e₁ = .ok (plaintext, r'.current) e' ∧
            identity = s.remoteIdentity ∧ r'.previous = front ++ back) ∧
      ((∀ n, e.refuses n = false) →
        ((∃ answer e', r.decrypt message baseKey e = .ok answer e') ↔
          ∃ s ∈ r.sessions, agreedWith baseKey s = true ∧ s.Accepts message) ∧
        ∀ front e₁, Refused message baseKey front e e₁ →
          ∀ s ∈ front, agreedWith baseKey s = true → ¬ s.Accepts message) ∧
      decryptInPlace message baseKey (r, e) =
        match r.decrypt message baseKey e with
        | .ok (plaintext, identity, r') e => .ok (plaintext, identity) (r', e)
        | .error err e => .error err (r, e)) ∧
    ∀ arrivals e, r.Tracks (accepted arrivals (r, e)) (receive arrivals (r, e)).1 := by
  refine ⟨fun message baseKey e => ⟨fun _ _ _ _ => decrypt_eq_ok_iff hr, fun he => ⟨?_, ?_⟩, ?_⟩,
    fun arrivals e => ?_⟩
  · exact exists_decrypt_iff hr he
  · exact fun front e₁ hrefused s hs ha => hrefused.not_accepts he hs ha
  · exact decryptInPlace_eq message baseKey r e
  · exact Tracks.receive (t := (r, e)) (.refl r) hr arrivals

end SessionRecord

end Reading

section Example

attribute [local instance] CipherSuite.transparent

namespace SessionRecord

/-- The answering half of a session, by its root key. -/
def answering (rootKey : UInt8) : Session :=
  { ratchet := .respond (Block.ofPrefix 32 [rootKey]) (Block.zero 32) 2 (Block.zero 64)
    remoteIdentity := ⟨Block.zero 32⟩, baseKey := ⟨Block.zero 32⟩, pending := none }

/-- The first message of the half that begins the session, by its root key. -/
def opening? (rootKey : UInt8) : Option RatchetMessage := do
  let ratchet ← answer? (Ratchet.initiate (Block.ofPrefix 32 [rootKey])
    (Secret.publicKey (Block.zero 32)) 2 (Block.zero 64)) .counting
  answer? (Ratchet.encrypt [7]) ratchet

/-- Three sessions, the third of which was agreed first. -/
def crossed : SessionRecord := { current := answering 3, previous := [answering 2, answering 1] }

/-- A message on the oldest session moves it to the front, and the others stay as they are. -/
theorem decrypt_spec_of_crossed :
    ∃ message r' e', crossed.decrypt message none .counting = .ok ([7], ⟨Block.zero 32⟩, r') e' ∧
      r'.previous = [answering 3, answering 2] ∧ ¬ (answering 3).Accepts message ∧
      crossed.Tracks [message] r' := by
  have hopening : (opening? 1).any fun message =>
      (answer? (crossed.decrypt message none) .counting).any fun a =>
        a.1 = [7] ∧ a.2.1 = ⟨Block.zero 32⟩ ∧ a.2.2.previous = [answering 3, answering 2] := by
    decide +kernel
  obtain ⟨message, -, hread⟩ := (Option.any_eq_true _ _).mp hopening
  obtain ⟨⟨plaintext, identity, r'⟩, hanswer, ha⟩ := (Option.any_eq_true _ _).mp hread
  obtain ⟨rfl, rfl, hprevious⟩ := of_decide_eq_true ha
  obtain ⟨e', hd⟩ := exists_of_answer? hanswer
  obtain ⟨hstep, hrun⟩ := decrypt_spec (r := crossed) (by decide)
  obtain ⟨hread, hwilling, hplace⟩ := hstep message none .counting
  rw [hd] at hplace
  refine ⟨message, r', e', hd, hprevious, ?_, ?_⟩
  · obtain ⟨front, s, back, e₁, hsessions, hrefused, -, -, -, hothers⟩ :=
      (hread [7] ⟨Block.zero 32⟩ r' e').mp hd
    have hnone : ∀ n, Entropy.counting.refuses n = false := fun _ => rfl
    cases front with
    | nil =>
      obtain ⟨-, hback⟩ := List.cons.inj hsessions
      rw [hprevious, List.nil_append, ← hback] at hothers
      exact absurd hothers (by decide +kernel)
    | cons x front =>
      obtain ⟨rfl, -⟩ := List.cons.inj hsessions
      exact (hwilling hnone).2 _ e₁ hrefused _ List.mem_cons_self rfl
  · have hrun := hrun [(message, none)] .counting
    unfold accepted receive at hrun
    rw [answer?_of_ok hplace, endState_of_ok hplace] at hrun
    exact hrun

end SessionRecord

end Example

end MultiDevice
