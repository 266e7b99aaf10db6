import MultiDevice.Proofs.KeyWrap.Consumption
import MultiDevice.Proofs.Session.Regular
import MultiDevice.Proofs.Session.Stored
import MultiDevice.Proofs.Trust.Pinned

/-!
# What is stored for devices

Sessions with a device are stored in their written form, and every wrapping and unwrapping reads
that form and writes it anew. A property of records that sending and reading keep therefore holds of
everything that is stored. One such property is that records are regular, so that a device that
there are sessions with can be sent to until a chain is exhausted.

## Main definitions

* `Store.EachRecord`: what is stored for devices are records with a property

## Main results

* `Store.EachRecord.wrap`, `.unwrap`: how wrapping and unwrapping keep a property of records
* `Operation.perform_regular`: every operation leaves regular records
* `wrap_of_regular`: a device that there is a regular record of is sent to unless a chain is
  exhausted
* `stored_regular`: what is stored in any run is the written form of a regular record
-/

namespace MultiDevice

open KeyWrap (Operation)

/-- What is stored for devices are the written forms of records as in `p`. -/
def Store.EachRecord (p : SessionRecord → Prop) (s : Store) : Prop :=
  ∀ (device : DeviceAddress) (bytes : Bytes), s.sessions[device]? = some bytes →
    ∃ record : SessionRecord, bytes = record.serialize ∧ p record

namespace Store.EachRecord

variable {p q : SessionRecord → Prop} {s s' : Store} {device : DeviceAddress}
  {record : SessionRecord}

theorem mono (h : s.EachRecord p) (hpq : ∀ record, p record → q record) : s.EachRecord q := by
  intro d bytes hb
  obtain ⟨record, hr, hp⟩ := h d bytes hb
  exact ⟨record, hr, hpq record hp⟩

theorem congr (h : s.EachRecord p) (hs : s'.sessions = s.sessions) : s'.EachRecord p := by
  intro d bytes hb
  rw [hs] at hb
  exact h d bytes hb

theorem empty (hs : s.sessions = ∅) : s.EachRecord p := by
  intro d bytes hb
  rw [hs, Std.ExtTreeMap.getElem?_empty] at hb
  cases hb

theorem saveSession (h : s.EachRecord p) (device : DeviceAddress) (hr : p record) :
    (s.saveSession device record).EachRecord p := by
  intro d bytes hb
  change (s.sessions.insert device record.serialize)[d]? = some bytes at hb
  rcases Entries.of_insert hb with ⟨-, rfl⟩ | ⟨-, hb⟩
  · exact ⟨record, rfl, hr⟩
  · exact h d bytes hb

theorem deleteSession (h : s.EachRecord p) (device : DeviceAddress) :
    (s.deleteSession device).EachRecord p := by
  intro d bytes hb
  change (s.sessions.erase device)[d]? = some bytes at hb
  exact h d bytes (Entries.of_erase hb)

/-- The record that is loaded is the one that was stored. -/
theorem of_loadSession (h : s.EachRecord p) (hl : s.loadSession device = .ok (some record)) :
    p record := by
  obtain ⟨bytes, hb, hd⟩ := Store.exists_of_loadSession hl
  obtain ⟨record', rfl, hp⟩ := h device bytes hb
  rw [SessionRecord.eq_of_deserialize_serialize hd]
  exact hp

variable [CipherSuite] {c : KeyWrap.Settings} {e e' : Entropy}

/-- Wrapping keeps what holds of a session that is started and what sending keeps. -/
theorem wrap {bundle : Option PreKeyBundle} {key : ContentKey} {t : KeyTransport}
    (h : s.EachRecord p)
    (hnew : ∀ b session, KeyWrap.outbound c s b e = .ok session e' → p (.ofSession session))
    (hsend : ∀ {record : SessionRecord} {m session}, p record →
      record.current.encrypt key.bytes.toList = .ok m session →
      p { record with current := session })
    (hw : KeyWrap.wrap c s device bundle key e = .ok (t, s') e') : s'.EachRecord p := by
  obtain ⟨record, session, hr, he, -, rfl⟩ := KeyWrap.wrap_eq_ok_iff.mp hw
  refine h.saveSession device (hsend ?_ he)
  rcases KeyWrap.recordFor_eq_ok_iff.mp hr with ⟨hl, -⟩ | ⟨-, b, new, -, ho, rfl⟩
  · exact h.of_loadSession hl
  · exact hnew b new ho

/-- Unwrapping leaves what reading a transport makes of the records stored. -/
theorem unwrap {t : KeyTransport} {u : KeyWrap.Unwrapped} (h : s.EachRecord p)
    (hpq : ∀ record, p record → q record)
    (hread : ∀ existing reading, (∀ record, existing = some record → p record) →
      KeyWrap.readTransport c s device existing t e = .ok reading e' → q reading.record)
    (hu : KeyWrap.unwrap c s device t e = .ok (u, s') e') : s'.EachRecord q := by
  obtain ⟨existing, reading, hl, hr, -, -, -, -, rfl⟩ := KeyWrap.exists_of_unwrap_eq_ok hu
  refine congr ?_ (KeyWrap.withoutConsumed_sessions _ u.consumed)
  refine (h.mono hpq).saveSession device (hread existing reading ?_ hr)
  rintro record rfl
  exact h.of_loadSession hl

end Store.EachRecord

namespace KeyWrap

open SessionRecord (Regular)

section Run

variable [CipherSuite] {c : Settings} {s s' : Store} {device : DeviceAddress} {e e' : Entropy}

/-- A session that is started can send at once, and sends its header along. -/
theorem regular_of_outbound {bundle : PreKeyBundle} {session : Session}
    (h : outbound c s bundle e = .ok session e') : session.Regular := by
  obtain ⟨agreed, ratchet, e₁, -, hr, rfl⟩ := outbound_eq_ok_iff.mp h
  obtain ⟨⟨chain, hsending⟩, hreceiving, hskipped⟩ := Ratchet.exists_of_initiate hr
  exact ⟨Option.isSome_of_eq_some hsending, iff_of_true rfl hreceiving, fun _ => hskipped⟩

/-- What is built for a header is a ratchet that waits, of a session with the ephemeral key of the
header. -/
theorem regular_of_inbound {header : PreKeyHeader} {session : Session}
    (h : inbound c s header = .ok session) :
    session.ratchet.Regular ∧ session.baseKey = header.baseKey := by
  obtain ⟨signed, oneTime, -, -, rfl⟩ := inbound_eq_ok_iff.mp h
  exact ⟨Ratchet.regular_respond _ _ _ _, rfl⟩

/-- A transport is read by a regular session, and by a new one only if no session has the ephemeral
key of its header. -/
theorem regular_of_readTransport {existing : Option SessionRecord} {t : KeyTransport}
    {reading : Reading} (h : ∀ record, existing = some record → record.Regular)
    (hr : readTransport c s device existing t e = .ok reading e') : reading.record.Regular := by
  rcases exists_of_readTransport hr with ⟨record, hrecord, -, hk⟩ | ⟨header, -, hno, hn⟩
  · exact (h record hrecord).decrypt (decrypt_of_readKnown hk).1
  · obtain ⟨session, session', hi, hd, hreading⟩ := exists_of_readNew hn
    obtain ⟨hwaits, hbase⟩ := regular_of_inbound hi
    have hregular := Session.regular_of_decrypt hwaits hd
    rw [hreading]
    cases existing with
    | none => exact .ofSession hregular
    | some record =>
      refine (h record rfl).promote hregular fun x hx hsame => ?_
      rw [Session.baseKey_of_decrypt hd, hbase] at hsame
      exact hno x hx (decide_eq_true hsame)

/-- Every operation leaves regular records. -/
theorem Operation.perform_regular (operation : Operation) {t : Store × Entropy}
    (h : t.1.EachRecord Regular) : (operation.perform c t).1.EachRecord Regular := by
  obtain ⟨s, e⟩ := t
  cases operation with
  | wrap device bundle key =>
    exact change_keeps h fun _ _ _ hw =>
      h.wrap (fun _ _ ho => .ofSession (regular_of_outbound ho)) Regular.encrypt hw
  | unwrap device transport =>
    exact change_keeps h fun _ _ _ hu =>
      h.unwrap (fun _ => id) (fun _ _ => regular_of_readTransport) hu
  | remove id => exact h
  | replenish target =>
    refine h.congr ?_
    rw [perform, Store.endState_replenish]
  | deleteSession device => exact h.deleteSession device
  | reprovision count now =>
    refine change_keeps h fun _ _ _ hr => ?_
    obtain ⟨s', e', hr, hs⟩ := bind_eq_ok_iff.mp hr
    cases hs
    exact .empty (Store.of_reprovision_eq_ok hr).2
  | surroundings signedPreKeys trust entropy => exact h

/-- Every run leaves regular records. -/
theorem run_regular (operations : List Operation) {t : Store × Entropy}
    (h : t.1.EachRecord Regular) : (run c operations t).1.EachRecord Regular := by
  induction operations generalizing t with
  | nil => exact h
  | cons operation rest ih => exact ih (operation.perform_regular h)

/-- A device that there is a regular record of is sent to, unless the chain is exhausted. -/
theorem wrap_of_regular {record : SessionRecord} (hl : s.loadSession device = .ok (some record))
    (hr : record.Regular) (bundle : Option PreKeyBundle) (key : ContentKey) (e : Entropy) :
    ∃ chain, record.current.ratchet.sending = some chain ∧
      ((chain.index ≠ Chain.lastIndex ∧ ∃ t s', wrap c s device bundle key e = .ok (t, s') e) ∨
        (chain.index = Chain.lastIndex ∧
          wrap c s device bundle key e = .error .chainExhausted e)) := by
  have hrecord : recordFor c s device bundle e = .ok record e :=
    recordFor_eq_ok_iff.mpr (.inl ⟨hl, rfl⟩)
  obtain ⟨chain, hchain, hsends⟩ :=
    (hr.sessions record.current List.mem_cons_self).encrypt_cases key.bytes.toList
  refine ⟨chain, hchain, ?_⟩
  rcases hsends with ⟨hroom, m, session, he⟩ | ⟨hlast, session, he⟩
  · exact .inl ⟨hroom, ⟨session.pending, m⟩, _,
      wrap_eq_ok_iff.mpr ⟨record, session, hrecord, he, rfl, rfl⟩⟩
  · refine .inr ⟨hlast, (bind_of_ok hrecord).trans ?_⟩
    rw [send, he]
    rfl

/-- **What is stored for a device is the written form of a regular record**, in every run from a
device that was just set up: one of at most 40 superseded sessions, with ephemeral keys that name
different points, each with a chain to send on, and with a header to send along exactly when the
other device was not heard of in it. As long as lengths have 64 bits, as they have in memory, the
record is read back as it is, and wrapping a content key for the device fails only because the chain
of the current session is exhausted. -/
theorem stored_regular {count : Nat} {now : Time} (h : Store.provision count now e = .ok s e')
    (operations : List Operation) {bytes : Bytes}
    (hb : (run c operations (s, e')).1.sessions[device]? = some bytes) :
    ∃ record : SessionRecord, bytes = record.serialize ∧ record.previous.length ≤ 40 ∧
      record.sessions.Pairwise (fun a b => ¬ a.baseKey.SamePoint b.baseKey) ∧
      (∀ session ∈ record.sessions, session.ratchet.sending.isSome = true ∧
        (session.pending.isSome = true ↔ session.ratchet.receiving = none)) ∧
      (bytes.length < UInt64.size →
        SessionRecord.deserialize bytes = .ok record ∧
        ∀ (bundle : Option PreKeyBundle) (key : ContentKey) (ent : Entropy),
          ∃ chain, record.current.ratchet.sending = some chain ∧
            ((chain.index ≠ Chain.lastIndex ∧ ∃ t s',
                wrap c (run c operations (s, e')).1 device bundle key ent = .ok (t, s') ent) ∨
              (chain.index = Chain.lastIndex ∧
                wrap c (run c operations (s, e')).1 device bundle key ent =
                  .error .chainExhausted ent))) := by
  have hnew : s.sessions = ∅ := by
    obtain ⟨pool, e₁, -, h⟩ := bind_eq_ok_iff.mp h
    obtain ⟨identity, e₂, -, h⟩ := bind_eq_ok_iff.mp h
    obtain ⟨ring, e₃, -, h⟩ := bind_eq_ok_iff.mp h
    cases h
    rfl
  obtain ⟨record, hrecord, hregular⟩ :=
    run_regular (c := c) operations (t := (s, e')) (.empty hnew) device bytes hb
  refine ⟨record, hrecord, hregular.previous, hregular.baseKeys,
    fun session hs => ⟨(hregular.sessions session hs).sending,
      (hregular.sessions session hs).pending⟩, fun hlength => ?_⟩
  rw [hrecord] at hb hlength
  have hread := SessionRecord.deserialize_serialize hlength
  refine ⟨hrecord ▸ hread, wrap_of_regular ?_ hregular⟩
  rw [Store.loadSession, hb]
  exact congrArg (Except.map some) hread

end Run

section Visited

attribute [local instance] CipherSuite.transparent

/-- A first content key arrives and is answered. -/
def answered (t : KeyTransport) : List Operation :=
  [.unwrap ⟨"bob", 1⟩ t, .wrap ⟨"bob", 1⟩ none ⟨Block.zero 32⟩]

/-- The session that a first content key started is stored, and sends. -/
theorem stored_regular_of_answered :
    ∃ s e t bytes, Store.provision 1 .epoch .counting = .ok s e ∧
      (run MultiDevice.Settings.standard.keyWrap (answered t) (s, e)).1.sessions[
        (⟨"bob", 1⟩ : DeviceAddress)]? = some bytes ∧
      ∃ record, SessionRecord.deserialize bytes = .ok record ∧ record.previous.length ≤ 40 ∧
        ∀ session ∈ record.sessions, session.ratchet.sending.isSome = true := by
  let c := MultiDevice.Settings.standard.keyWrap
  have hvisit : (setUp? 1).any fun start => (firstTransport? c start.1 start.2).any fun t =>
      ((run c (answered t) start).1.sessions[(⟨"bob", 1⟩ : DeviceAddress)]?).any fun bytes =>
        bytes.length < UInt64.size := by
    decide +kernel
  obtain ⟨start, hstart, hvisit⟩ := (Option.any_eq_true _ _).mp hvisit
  obtain ⟨t, -, hvisit⟩ := (Option.any_eq_true _ _).mp hvisit
  obtain ⟨bytes, hb, hlength⟩ := (Option.any_eq_true _ _).mp hvisit
  have hprovision := provision_of_setUp hstart
  obtain ⟨record, -, hprevious, -, hsessions, hread⟩ := stored_regular hprovision (answered t) hb
  exact ⟨start.1, start.2, t, bytes, hprovision, hb, record,
    (hread (of_decide_eq_true hlength)).1, hprevious, fun session hs => (hsessions session hs).1⟩

end Visited

end KeyWrap

end MultiDevice
