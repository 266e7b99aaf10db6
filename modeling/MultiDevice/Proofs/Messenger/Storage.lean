import Mathlib.Algebra.Ring.Nat
import MultiDevice.Proofs.Messenger.Sessions
import MultiDevice.Proofs.Session.Size

/-!
# What a device stores stays small

A device stores one record for each device that it has sessions with. Records grow when messages are
read and at no other time, so what a device stores is limited by how many messages it was asked to
read.

## Main definitions

* `Store.Compact`: all records stored are compact

## Main results

* `Request.perform_compact`: only reading a message makes records less compact
* `Store.Compact.length_lt`: what a device stores has a length of 64 bits while it reads few
  messages
-/

namespace MultiDevice

/-- What is stored for devices are compact records. -/
def Store.Compact (k : Nat) (s : Store) : Prop :=
  ∀ (device : DeviceAddress) (bytes : Bytes), s.sessions[device]? = some bytes →
    ∃ record : SessionRecord, bytes = record.serialize ∧ record.Compact k

namespace KeyWrap

variable [CipherSuite] {c : Settings} {s : Store} {device : DeviceAddress} {e e' : Entropy}
  {k : Nat}

/-- A record stays compact when a transport is read. -/
theorem compact_of_readTransport {existing : Option SessionRecord} {t : KeyTransport}
    {reading : Reading} (h : ∀ record, existing = some record → record.Compact k)
    (hr : readTransport c s device existing t e = .ok reading e') :
    reading.record.Compact (k + 2 * UInt32.size) := by
  rcases exists_of_readTransport hr with ⟨record, hrecord, -, hk⟩ | ⟨header, -, -, hn⟩
  · exact (h record hrecord).decrypt (decrypt_of_readKnown hk).1
  · obtain ⟨session, session', hi, hd, hreading⟩ := exists_of_readNew hn
    have hnone : session.ratchet.skipped.size ≤ k := by
      rw [inbound_skipped hi]
      exact Nat.zero_le k
    have hfew := Session.size_skipped_le_of_decrypt hd hnone
    rw [hreading]
    cases existing with
    | none => exact .ofSession hfew
    | some record => exact ((h record rfl).mono (Nat.le_add_right _ _)).promote hfew

end KeyWrap

namespace Store.Compact

variable {k k' : Nat} {s s' : Store} {device : DeviceAddress} {record : SessionRecord}

theorem eachRecord (h : s.Compact k) : s.EachRecord (·.Compact k) := h

theorem mono (h : s.Compact k) (hk : k ≤ k') : s.Compact k' :=
  h.eachRecord.mono fun _ hr => hr.mono hk

theorem congr (h : s.Compact k) (hs : s'.sessions = s.sessions) : s'.Compact k :=
  h.eachRecord.congr hs

theorem empty (hs : s.sessions = ∅) : s.Compact k := EachRecord.empty hs

theorem deleteSession (h : s.Compact k) (device : DeviceAddress) :
    (s.deleteSession device).Compact k :=
  h.eachRecord.deleteSession device

/-- A compact record has a length of 64 bits unless there are very many keys. -/
theorem length_lt (h : s.Compact k) (hk : k ≤ 2 ^ 51) {bytes : Bytes}
    (hb : s.sessions[device]? = some bytes) : bytes.length < UInt64.size := by
  obtain ⟨record, rfl, hc⟩ := h device bytes hb
  have hlength := hc.length_serialize_le
  have hsize : UInt64.size = 2 ^ 64 := rfl
  omega

section Run

variable [CipherSuite] {c : KeyWrap.Settings} {e e' : Entropy}

/-- Wrapping a key puts no message keys aside. -/
theorem wrap {bundle : Option PreKeyBundle} {key : ContentKey} {t : KeyTransport}
    (h : s.Compact k) (hw : KeyWrap.wrap c s device bundle key e = .ok (t, s') e') :
    s'.Compact k := by
  refine h.eachRecord.wrap (fun b session ho => SessionRecord.Compact.ofSession ?_)
    SessionRecord.Compact.encrypt hw
  rw [KeyWrap.outbound_skipped ho]
  exact Nat.zero_le k

/-- Unwrapping a key puts at most as many message keys aside as reading a message does. -/
theorem unwrap {t : KeyTransport} {u : KeyWrap.Unwrapped} (h : s.Compact k)
    (hu : KeyWrap.unwrap c s device t e = .ok (u, s') e') : s'.Compact (k + 2 * UInt32.size) :=
  h.eachRecord.unwrap (fun _ hr => hr.mono (Nat.le_add_right _ _))
    (fun _ _ => KeyWrap.compact_of_readTransport) hu

end Run

end Store.Compact

/-- Reading a message makes records less compact, and nothing else does. -/
theorem SessionProperty.compact [CipherSuite] (k : Nat) :
    SessionProperty (Store.Compact k) (Store.Compact (k + 2 * UInt32.size)) where
  congr hs _ h := h.congr hs
  congr_read hs _ h := h.congr hs
  relax h := h.mono (Nat.le_add_right _ _)
  empty hs := .empty hs
  forget device h := h.deleteSession device
  wrap h hw := h.wrap hw
  unwrap h hu := h.unwrap hu

namespace Request

/-- How many messages a request may read. -/
def reads : Request → Nat
  | decrypt _ _ => 1
  | _ => 0

variable [CipherSuite]

/-- Only reading a message makes records less compact. -/
theorem perform_compact {k : Nat} {s : Scene} (request : Request)
    (h : s.messenger.store.Compact k) :
    (request.perform s).messenger.store.Compact (k + request.reads * (2 * UInt32.size)) := by
  have hproperty := SessionProperty.compact k
  by_cases hread : ∃ sender envelope, request = .decrypt sender envelope
  · obtain ⟨sender, envelope, rfl⟩ := hread
    rw [reads, Nat.one_mul]
    exact hproperty.perform_decrypt sender envelope h
  · have hnone : request.reads = 0 := by
      unfold reads
      split
      · exact absurd ⟨_, _, rfl⟩ hread
      · rfl
    rw [hnone, Nat.zero_mul, Nat.add_zero]
    exact hproperty.perform (fun sender envelope heq => hread ⟨sender, envelope, heq⟩) h

end Request

end MultiDevice
