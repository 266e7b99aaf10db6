import Mathlib.Data.List.Nodup
import MultiDevice.Proofs.Messenger.Randomness

/-!
# The envelopes of a run

Every envelope that a device makes has a content key of its own, which is drawn for it. As long as
the source does not repeat itself, the content key tells the envelope.

## Main definitions

* `Authored`, `Scene.authored`: the envelopes that a device makes in a run, with their content keys
* `Entropy.BlocksDistinct`: a source that does not draw the same key twice

## Main results

* `Request.exists_of_authored`: an envelope that a request makes comes from an encryption
* `Scene.nodup_authored`: no content key is used for two envelopes
-/

namespace MultiDevice

/-- An envelope, and the content key that its payload is encrypted under. -/
structure Authored where
  /-- The content key. -/
  key : ContentKey
  /-- The envelope. -/
  envelope : Envelope

/-- The blocks drawn from a source before its draw number `stop` are different. -/
def Entropy.BlocksDistinct (e : Entropy) (stop : Nat) : Prop :=
  ∀ k < stop, ∀ j < k, e.drawn ≤ j → e.supply j 32 ≠ e.supply k 32

instance (e : Entropy) (stop : Nat) : Decidable (e.BlocksDistinct stop) :=
  inferInstanceAs (Decidable (∀ k < stop, ∀ j < k, e.drawn ≤ j → e.supply j 32 ≠ e.supply k 32))

section Run

variable [CipherSuite]

/-- The envelope that a request makes, if it makes one. -/
def Request.authored? (s : Scene) : Request → Option Authored
  | .encryptFor recipients plaintext allowed =>
    match Messenger.prepare recipients plaintext allowed s,
      Messenger.encryptFor recipients plaintext allowed s with
    | .ok (_, key, _) _, .ok encryption _ => some { key, envelope := encryption.envelope }
    | _, _ => none
  | _ => none

/-- The envelopes that a device makes in a run. -/
def Scene.authored : Scene → List Request → List Authored
  | _, [] => []
  | s, request :: requests =>
    (request.authored? s).toList ++ (request.perform s).authored requests

/-! ## Every envelope has a content key of its own -/

/-- The content key of an encryption is the first block that is drawn for it. -/
theorem Messenger.key_of_prepare {recipients : List Account} {plaintext : Bytes}
    {allowed : DeviceSet} {s t : Scene} {verdict : TrustVerdict} {key : ContentKey}
    {payload : Payload}
    (h : prepare recipients plaintext allowed s = .ok (verdict, key, payload) t) :
    key = ⟨s.entropy.supply s.entropy.drawn 32⟩ ∧ Entropy.Later s.entropy.next t.entropy := by
  rw [prepare, bind_get] at h
  obtain ⟨devices, t₁, hx, h⟩ := bind_eq_ok_iff.mp h
  obtain ⟨-, rfl⟩ := Action.ofExcept_eq_ok_iff.mp hx
  obtain ⟨verdict', t₂, hx, h⟩ := bind_eq_ok_iff.mp h
  obtain ⟨-, rfl⟩ := Action.ofExcept_eq_ok_iff.mp hx
  obtain ⟨key', t₃, hkey, h⟩ := bind_eq_ok_iff.mp h
  obtain ⟨payload', t₄, hpayload, h⟩ := bind_eq_ok_iff.mp h
  cases h
  obtain ⟨e₁, hgenerate, rfl⟩ := Action.draw_eq_ok_iff.mp hkey
  obtain ⟨e₂, hencrypt, rfl⟩ := Action.draw_eq_ok_iff.mp hpayload
  obtain ⟨b, e, hblock, hgenerate⟩ := bind_eq_ok_iff.mp hgenerate
  obtain ⟨rfl, rfl⟩ := Entropy.eq_of_block hblock
  cases hgenerate
  exact ⟨rfl, (ContentKey.encrypt_advances _ _ _).of_ok hencrypt⟩

/-- An envelope that a request makes comes from an encryption. -/
theorem Request.exists_of_authored {s : Scene} {request : Request} {x : Authored}
    (hx : request.authored? s = some x) :
    ∃ recipients plaintext allowed verdict payload t keys failures,
      Messenger.prepare recipients plaintext allowed s = .ok (verdict, x.key, payload) t ∧
      Messenger.wrapAll x.key verdict.accepted.toList t = .ok (keys, failures) (request.perform s) ∧
      x.envelope =
        { sender := s.messenger.address, keys, payload, hints := s.messenger.settings.hints } := by
  unfold authored? at hx
  split at hx
  · next recipients plaintext allowed =>
    split at hx
    · next verdict key payload t encryption s' hprepare hencrypt =>
      cases hx
      obtain ⟨verdict', key', payload', t', keys, failures, hprepare', hwrap, rfl⟩ :=
        Messenger.exists_of_encryptFor_eq_ok hencrypt
      cases hprepare.symm.trans hprepare'
      rw [perform, endState_of_ok hencrypt]
      exact ⟨recipients, plaintext, allowed, verdict, payload, t, keys, failures, hprepare, hwrap,
        rfl⟩
    · cases hx
  · cases hx

/-- The content key of a request is the next block of the source, which is drawn for it. -/
theorem Request.key_of_authored {s : Scene} {request : Request} {x : Authored}
    (hx : request.authored? s = some x) :
    x.key.bytes = s.entropy.supply s.entropy.drawn 32 ∧
      s.entropy.drawn < (request.perform s).entropy.drawn := by
  obtain ⟨_, _, _, verdict, _, t, _, _, hprepare, hwrap, -⟩ := exists_of_authored hx
  obtain ⟨hkey, hlater⟩ := Messenger.key_of_prepare hprepare
  have hwrapped := Messenger.wrapAll_advances x.key verdict.accepted.toList t
  rw [endState_of_ok hwrap] at hwrapped
  rw [hkey]
  exact ⟨rfl, (hlater.trans hwrapped).drawn⟩

namespace Scene

/-- The content keys of a run are drawn in that run. -/
theorem drew_of_mem_authored {s : Scene} {requests : List Request} (h : s.Flows requests)
    {x : Authored} (hx : x ∈ s.authored requests) :
    s.entropy.Drew (s.run requests).entropy.drawn x.key.bytes := by
  induction requests generalizing s with
  | nil => cases hx
  | cons request requests ih =>
    have hlater := Request.perform_later h.1
    rcases List.mem_append.mp hx with hx | hx
    · obtain ⟨hkey, hlt⟩ := Request.key_of_authored (Option.mem_toList.mp hx)
      exact ⟨s.entropy.drawn, Nat.le_refl _, Nat.lt_of_lt_of_le hlt h.2.later.drawn, hkey⟩
    · obtain ⟨n, hn, hlt, hkey⟩ := ih h.2 hx
      refine ⟨n, Nat.le_trans hlater.drawn hn, hlt, ?_⟩
      rw [hkey, hlater.supply]

/-- No content key is used for two envelopes. -/
theorem nodup_authored {s : Scene} {requests : List Request} (h : s.Flows requests)
    (hdistinct : s.entropy.BlocksDistinct (s.run requests).entropy.drawn) :
    ((s.authored requests).map (·.key)).Nodup := by
  induction requests generalizing s with
  | nil => exact List.nodup_nil
  | cons request requests ih =>
    have hlater := Request.perform_later h.1
    have hrest : (request.perform s).entropy.BlocksDistinct
        ((request.perform s).run requests).entropy.drawn := by
      intro k hk j hjk hj
      rw [hlater.supply]
      exact hdistinct k hk j hjk (Nat.le_trans hlater.drawn hj)
    rw [authored, List.map_append]
    refine List.Nodup.append ?_ (ih h.2 hrest) ?_
    · cases request.authored? s with
      | none => exact List.nodup_nil
      | some x => exact List.nodup_singleton x.key
    · intro key hfirst hlast
      obtain ⟨x, hx, rfl⟩ := List.mem_map.mp hfirst
      obtain ⟨y, hy, hkey⟩ := List.mem_map.mp hlast
      obtain ⟨hxkey, hlt⟩ := Request.key_of_authored (Option.mem_toList.mp hx)
      obtain ⟨n, hn, hstop, hykey⟩ := drew_of_mem_authored h.2 hy
      have hne := hdistinct n hstop s.entropy.drawn (Nat.lt_of_lt_of_le hlt hn) (Nat.le_refl _)
      rw [← hlater.supply, ← hykey, hkey, hxkey, hlater.supply] at hne
      exact hne rfl

end Scene

end Run

end MultiDevice
