import MultiDevice.Proofs.Draw
import MultiDevice.Session.Record

/-!
# Which session reads a message

A record tries its sessions one after the other, the current one first. The one that reads the
message becomes current, and the others stay. A session that refuses a message uses up randomness,
so a session is tried with what the ones before it left.

## Main definitions

* `Session.Refuses`: a session does not read a message
* `SessionRecord.reader?`: the session that reads a message
* `SessionRecord.Outcome`: what a record becomes when one of its sessions reads a message

## Main results

* `SessionRecord.exists_of_decrypt_eq_ok`: a message is read by one of the sessions tried
* `SessionRecord.exists_decrypt`: a message is read if one session reads it and those tried
  otherwise refuse it
-/

namespace MultiDevice

variable [CipherSuite] {message : RatchetMessage} {e e' : Entropy}

namespace Session

theorem encrypt_eq_ok_iff {s s' : Session} {plaintext : Bytes} :
    s.encrypt plaintext = .ok message s' ↔ ∃ ratchet,
      s.ratchet.encrypt plaintext = .ok message ratchet ∧ s' = { s with ratchet } := by
  unfold encrypt
  cases h : Ratchet.encrypt plaintext s.ratchet with
  | ok m ratchet =>
    constructor
    · rintro ⟨⟩
      exact ⟨ratchet, rfl, rfl⟩
    · rintro ⟨ratchet', heq, rfl⟩
      cases heq
      rfl
  | error err ratchet =>
    constructor
    · rintro ⟨⟩
    · rintro ⟨ratchet', heq, -⟩
      cases heq

theorem decrypt_eq_ok_iff {s s' : Session} {plaintext : Bytes} :
    s.decrypt message e = .ok (plaintext, s') e' ↔ ∃ ratchet,
      s.ratchet.decrypt message e = .ok (plaintext, ratchet) e' ∧
        s' = { s with ratchet, pending := none } := by
  refine bind_eq_ok_iff.trans ?_
  constructor
  · rintro ⟨⟨plaintext', ratchet⟩, t, hd, h⟩
    cases h
    exact ⟨ratchet, hd, rfl⟩
  · rintro ⟨ratchet, hd, rfl⟩
    exact ⟨(plaintext, ratchet), e', hd, rfl⟩

theorem decrypt_advances (s : Session) (message : RatchetMessage) :
    Draw.Advances (s.decrypt message) :=
  (s.ratchet.decrypt_advances message).bind fun _ => Draw.Advances.pure _

/-- The session does not read the message, whatever it draws. -/
def Refuses (s : Session) (message : RatchetMessage) : Prop :=
  ∀ e, ∃ err e', s.decrypt message e = .error err e'

end Session

namespace SessionRecord

variable {baseKey : Option PublicKey}

/-! ## One session at a time -/

section Tried

variable {s session : Session} {rest : List Session} {failure err : Error} {plaintext : Bytes}

theorem readFirst_of_ok (ha : agreedWith baseKey s = true)
    (hd : s.decrypt message e = .ok (plaintext, session) e') :
    readFirst message baseKey failure (s :: rest) e =
      .ok { plaintext, session, others := rest } e' := by
  simp only [readFirst, if_pos ha, hd]

theorem readFirst_of_error (ha : agreedWith baseKey s = true)
    (hd : s.decrypt message e = .error err e') :
    readFirst message baseKey failure (s :: rest) e =
      (Reading.past s <$> readFirst message baseKey err rest) e' := by
  simp only [readFirst, if_pos ha, hd]

theorem readFirst_of_not_agreed (ha : ¬ agreedWith baseKey s = true) :
    readFirst message baseKey failure (s :: rest) e =
      (Reading.past s <$> readFirst message baseKey failure rest) e := by
  simp only [readFirst, if_neg ha]

end Tried

theorem readFirst_advances (message : RatchetMessage) (baseKey : Option PublicKey)
    (failure : Error) (sessions : List Session) :
    Draw.Advances (readFirst message baseKey failure sessions) := by
  induction sessions generalizing failure with
  | nil => exact Draw.Advances.throw failure
  | cons s rest ih =>
    intro e
    have hs := s.decrypt_advances message
    unfold endState readFirst
    by_cases ha : agreedWith baseKey s = true
    · rw [if_pos ha]
      cases hd : s.decrypt message e with
      | ok a t => exact hs.of_ok hd
      | error err t => exact (hs.of_error hd).trans ((ih err).map (Reading.past s) t)
    · rw [if_neg ha]
      exact (ih failure).map (Reading.past s) e

theorem decrypt_advances (r : SessionRecord) (message : RatchetMessage)
    (baseKey : Option PublicKey) : Draw.Advances (r.decrypt message baseKey) := by
  have archived : ∀ failure, Draw.Advances (r.decryptArchived message baseKey failure) :=
    fun failure => (readFirst_advances message baseKey failure r.previous).bind fun _ =>
      Draw.Advances.pure _
  intro e
  have hs := r.current.decrypt_advances message
  unfold endState decrypt
  by_cases ha : agreedWith baseKey r.current = true
  · rw [if_pos ha]
    cases hd : r.current.decrypt message e with
    | ok a t => exact hs.of_ok hd
    | error err t => exact (hs.of_error hd).trans (archived err t)
  · rw [if_neg ha]
    exact archived _ e

/-- The first session that reads a message, and the source that it draws from. -/
def reader? (message : RatchetMessage) (baseKey : Option PublicKey) :
    List Session → Entropy → Option (Session × Entropy)
  | [], _ => none
  | s :: rest, e =>
    if agreedWith baseKey s then
      match s.decrypt message e with
      | .ok _ _ => some (s, e)
      | .error _ e => reader? message baseKey rest e
    else reader? message baseKey rest e

/-- The sessions that are tried first may draw. -/
theorem later_of_reader? {sessions : List Session} {s : Session} {e₁ : Entropy}
    (h : reader? message baseKey sessions e = some (s, e₁)) : Entropy.Later e e₁ := by
  induction sessions generalizing e with
  | nil => cases h
  | cons x rest ih =>
    rw [reader?] at h
    split at h
    · split at h
      · cases h
        exact .refl _
      · next err t hd => exact ((x.decrypt_advances message).of_error hd).trans (ih h)
    · exact ih h

/-- A message is read by the first session that does, and the others stay in their order. -/
theorem exists_of_readFirst_eq_ok {sessions : List Session} {failure : Error} {reading : Reading}
    (h : readFirst message baseKey failure sessions e = .ok reading e') :
    ∃ front s back e₁, sessions = front ++ s :: back ∧
      reader? message baseKey sessions e = some (s, e₁) ∧
      s.decrypt message e₁ = .ok (reading.plaintext, reading.session) e' ∧
      reading.others = front ++ back := by
  induction sessions generalizing failure e reading with
  | nil => cases h
  | cons s rest ih =>
    have past : ∀ {failure : Error} {t : Entropy},
        (Reading.past s <$> readFirst message baseKey failure rest) t = .ok reading e' →
        ∃ front s' back e₁, s :: rest = front ++ s' :: back ∧
          reader? message baseKey rest t = some (s', e₁) ∧
          s'.decrypt message e₁ = .ok (reading.plaintext, reading.session) e' ∧
          reading.others = front ++ back := by
      intro failure t h
      obtain ⟨r, hr, rfl⟩ := map_eq_ok_iff.mp h
      obtain ⟨front, s', back, e₁, rfl, hreader, hd, ho⟩ := ih hr
      exact ⟨s :: front, s', back, e₁, rfl, hreader, hd, by simp [Reading.past, ho]⟩
    simp only [readFirst] at h
    simp only [reader?]
    split at h
    · next ha =>
      rw [if_pos ha]
      split at h
      · next plaintext session t hd =>
        cases h
        exact ⟨[], s, rest, e, rfl, by rw [hd], hd, rfl⟩
      · next err t hd =>
        rw [hd]
        exact past h
    · next ha =>
      rw [if_neg ha]
      exact past h

/-- A message is read if one session reads it, whatever was drawn before, and the others that are
tried refuse it. -/
theorem exists_readFirst {sessions : List Session} {s : Session} (hs : s ∈ sessions)
    (ha : agreedWith baseKey s = true)
    (hothers : ∀ x ∈ sessions, x ≠ s → agreedWith baseKey x = true → x.Refuses message)
    (hread : ∀ t, Entropy.Later e t → ∃ a t', s.decrypt message t = .ok a t') (failure : Error) :
    ∃ reading e', readFirst message baseKey failure sessions e = .ok reading e' := by
  induction sessions generalizing e failure with
  | nil => exact absurd hs List.not_mem_nil
  | cons x rest ih =>
    by_cases hx : x = s
    · obtain ⟨⟨plaintext, session⟩, e', hd⟩ := hread e (Entropy.Later.refl e)
      rw [← hx] at ha hd
      exact ⟨_, e', readFirst_of_ok ha hd⟩
    · have hs' := (List.mem_cons.mp hs).resolve_left (Ne.symm hx)
      have hothers' := fun y hy => hothers y (List.mem_cons_of_mem x hy)
      by_cases hax : agreedWith baseKey x = true
      · obtain ⟨err, t, hd⟩ := hothers x List.mem_cons_self hx hax e
        have ht := (x.decrypt_advances message).of_error hd
        obtain ⟨reading, e', hr⟩ := ih hs' hothers' (fun u hu => hread u (ht.trans hu)) err
        exact ⟨_, e', (readFirst_of_error hax hd).trans (map_of_ok hr)⟩
      · obtain ⟨reading, e', hr⟩ := ih hs' hothers' hread failure
        exact ⟨_, e', (readFirst_of_not_agreed hax).trans (map_of_ok hr)⟩

omit [CipherSuite] in
/-- A session that is promoted joins the others, unless there are too many. -/
theorem sessions_promote {r : SessionRecord} (h : r.sessions.length ≤ archiveLimit) (s : Session) :
    (r.promote s).sessions = s :: r.sessions :=
  congrArg (s :: ·) (List.take_of_length_le h)

/-- What a record becomes when one of its sessions reads a message: that session is current, and the
others stay, unless there are too many. -/
structure Outcome (r : SessionRecord) (s : Session) (others : List Session) (r' : SessionRecord) :
    Prop where
  tried : r.sessions.Perm (s :: others)
  sessions : r.sessions.length ≤ archiveLimit → r'.sessions.Perm (r'.current :: others)
  previous : r'.previous.Sublist others
  length_previous : r'.previous.length ≤ max r.previous.length archiveLimit

/-- A superseded session reads the message, and the current one is superseded. -/
theorem exists_of_decryptArchived_eq_ok {r r' : SessionRecord} {plaintext : Bytes}
    {identity : PublicKey} {failure : Error}
    (h : r.decryptArchived message baseKey failure e = .ok (plaintext, identity, r') e') :
    ∃ s others e₁, Outcome r s others r' ∧ reader? message baseKey r.previous e = some (s, e₁) ∧
      s.decrypt message e₁ = .ok (plaintext, r'.current) e' ∧
      identity = r'.current.remoteIdentity := by
  obtain ⟨reading, e₂, hr, h⟩ := bind_eq_ok_iff.mp h
  cases h
  obtain ⟨front, s, back, e₁, hs, hreader, hd, ho⟩ := exists_of_readFirst_eq_ok hr
  have hperm : r.sessions.Perm (s :: r.current :: (front ++ back)) := by
    rw [sessions, hs]
    exact (List.perm_middle.cons r.current).trans (List.Perm.swap s r.current _)
  refine ⟨s, r.current :: (front ++ back), e₁, ⟨hperm, fun hshort => ?_, ?_, ?_⟩, hreader, hd, rfl⟩
  · have hlength : ({ r with previous := reading.others } : SessionRecord).sessions.length ≤
        archiveLimit := by
      rw [hperm.length_eq] at hshort
      rw [sessions, ho]
      exact Nat.le_of_succ_le hshort
    rw [sessions_promote hlength, sessions, ho]
    exact List.Perm.refl _
  · rw [← ho]
    exact List.take_sublist _ _
  · exact Nat.le_trans (List.length_take_le _ _) (Nat.le_max_right _ _)

/-- A record reads a message with the first of its sessions that does, and that one is current
afterwards. -/
theorem exists_of_decrypt_eq_ok {r r' : SessionRecord} {plaintext : Bytes} {identity : PublicKey}
    (h : r.decrypt message baseKey e = .ok (plaintext, identity, r') e') :
    ∃ s others e₁, Outcome r s others r' ∧ reader? message baseKey r.sessions e = some (s, e₁) ∧
      s.decrypt message e₁ = .ok (plaintext, r'.current) e' ∧
      identity = r'.current.remoteIdentity := by
  simp only [decrypt] at h
  simp only [sessions, reader?]
  split at h
  · next ha =>
    rw [if_pos ha]
    split at h
    · next plaintext' session e₁ hd =>
      cases h
      refine ⟨r.current, r.previous, e, ⟨.refl _, fun _ => .refl _, .refl _, ?_⟩, by rw [hd], hd,
        rfl⟩
      exact Nat.le_max_left _ _
    · next err t hd =>
      rw [hd]
      exact exists_of_decryptArchived_eq_ok h
  · next ha =>
    rw [if_neg ha]
    exact exists_of_decryptArchived_eq_ok h

/-- A record reads a message if one session reads it, whatever was drawn before, and the others that
are tried refuse it. -/
theorem exists_decrypt {r : SessionRecord} {s : Session} (hs : s ∈ r.sessions)
    (ha : agreedWith baseKey s = true)
    (hothers : ∀ x ∈ r.sessions, x ≠ s → agreedWith baseKey x = true → x.Refuses message)
    (hread : ∀ t, Entropy.Later e t → ∃ a t', s.decrypt message t = .ok a t') :
    ∃ a e', r.decrypt message baseKey e = .ok a e' := by
  have archived : ∀ {failure : Error} {t : Entropy}, Entropy.Later e t → r.current ≠ s →
      ∃ a e', r.decryptArchived message baseKey failure t = .ok a e' := by
    intro failure t ht hc
    have hs' := (List.mem_cons.mp hs).resolve_left (Ne.symm hc)
    obtain ⟨reading, e', hr⟩ := exists_readFirst hs' ha
      (fun x hx => hothers x (List.mem_cons_of_mem _ hx)) (fun u hu => hread u (ht.trans hu))
      failure
    exact ⟨_, e', bind_eq_ok_iff.mpr ⟨reading, e', hr, rfl⟩⟩
  simp only [decrypt]
  by_cases hc : r.current = s
  · obtain ⟨⟨plaintext, session⟩, e', hd⟩ := hread e (Entropy.Later.refl e)
    rw [hc, if_pos ha, hd]
    exact ⟨_, _, rfl⟩
  · by_cases hac : agreedWith baseKey r.current = true
    · obtain ⟨err, t, hd⟩ := hothers r.current List.mem_cons_self hc hac e
      rw [if_pos hac, hd]
      exact archived ((r.current.decrypt_advances message).of_error hd) hc
    · rw [if_neg hac]
      exact archived (Entropy.Later.refl e) hc

end SessionRecord

end MultiDevice
