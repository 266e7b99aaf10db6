import Mathlib.Data.List.Perm.Subperm
import MultiDevice.Proofs.Ratchet.KeyUse

/-!
# How several ratchets use their keys

Two devices may have several sessions with each other, each with a ratchet of its own. A ratchet
uses its own keys only, so as long as the secrets that they start from differ, what one ratchet
holds no other has derived or used.

## Main definitions

* `Ratchet.heldBy`: the keys of several ratchets
* `UnspentIn`: ratchets that hold unspent keys, each its own

## Main results

* `UnspentIn.subperm`: ratchets may be dropped and put in any order
* `UnspentIn.decrypt`, `UnspentIn.encrypt`: one ratchet reads, or sends
* `UnspentIn.respond`, `UnspentIn.initiate`: one ratchet more, from a new secret
-/

namespace MultiDevice

open MultiDevice.Derivation (Distinct)

/-- The keys of several ratchets. -/
def Ratchet.heldBy (ratchets : List Ratchet) (place : Ratchet × Slot) : Option (Block 32) :=
  if place.1 ∈ ratchets then place.1.keyIn none place.2 else none

theorem Ratchet.heldBy_eq_some_iff {ratchets : List Ratchet} {place : Ratchet × Slot}
    {k : Block 32} :
    heldBy ratchets place = some k ↔ place.1 ∈ ratchets ∧ place.1.keyIn none place.2 = some k := by
  unfold heldBy
  split
  · next hmem => exact ⟨fun hk => ⟨hmem, hk⟩, And.right⟩
  · next hmem => exact ⟨nofun, fun hk => absurd hk.1 hmem⟩

/-- A ratchet holds a root key at any time. -/
theorem Ratchet.heldBy_root {ratchets : List Ratchet} {r : Ratchet} (h : r ∈ ratchets) :
    heldBy ratchets (r, .root) = some r.rootKey := heldBy_eq_some_iff.mpr ⟨h, rfl⟩

variable [CipherSuite] {made : List Derivation} {ratchets ratchets' others : List Ratchet}
  {r r' : Ratchet} {ent ent' : Entropy} {secret : Block 32}

/-- Several ratchets hold unspent keys, each its own. -/
structure UnspentIn (made : List Derivation) (ratchets : List Ratchet) : Prop where
  unspent : Unspent made (Ratchet.heldBy ratchets)
  nodup : ratchets.Nodup

/-- A secret that was not agreed on before is held beside what is held already. -/
theorem Unspent.agree {κ : Type} {rest : κ → Option (Block 32)} (h : Unspent made rest)
    (hnew : .agreed secret ∉ made) (hd : Distinct (made ++ [.agreed secret]))
    (hr : ∀ slot k, r.keyIn none slot = some k → slot = .root ∧ k = secret) :
    Unspent (made ++ [.agreed secret]) (r.keysBeside none rest) := by
  have hother : ∀ d ∈ made, d.output ≠ secret := by
    intro d hmem hout
    have heq := hd d (List.mem_append_left _ hmem) (.agreed secret)
      (List.mem_append_right _ (List.mem_singleton.mpr rfl)) hout
    exact hnew (heq ▸ hmem)
  have hmine : ∀ slot j k, r.keyIn none slot = some k → rest j ≠ some k := by
    intro slot j k hk hj
    obtain ⟨-, rfl⟩ := hr slot k hk
    obtain ⟨d, hmem, hout⟩ := h.derived j _ hj
    exact hother d hmem hout
  constructor
  · rintro (slot | j) k hk
    · obtain ⟨-, rfl⟩ := hr slot k hk
      exact ⟨_, List.mem_append_right _ (List.mem_singleton.mpr rfl), rfl⟩
    · obtain ⟨d, hmem, hout⟩ := h.derived j k hk
      exact ⟨d, List.mem_append_left _ hmem, hout⟩
  · rintro (slot | j) k hk d hmem hspends
    · obtain ⟨-, rfl⟩ := hr slot k hk
      rcases List.mem_append.mp hmem with hmem | hmem
      · obtain ⟨d', hmem', hout⟩ := h.closed d hmem _ hspends
        exact hother d' hmem' hout
      · rw [List.mem_singleton.mp hmem] at hspends
        cases hspends
    · rcases List.mem_append.mp hmem with hmem | hmem
      · exact h.unspent j k hk d hmem hspends
      · rw [List.mem_singleton.mp hmem] at hspends
        cases hspends
  · rintro (slot | i) (slot' | j) k hi hj
    · rw [(hr slot k hi).1, (hr slot' k hj).1]
    · exact absurd hj (hmine slot j k hi)
    · exact absurd hi (hmine slot' i k hj)
    · exact congrArg Sum.inr (h.apart i j k hi hj)
  · intro d hmem k hspends
    rcases List.mem_append.mp hmem with hmem | hmem
    · obtain ⟨d', hmem', hout⟩ := h.closed d hmem k hspends
      exact ⟨d', List.mem_append_left _ hmem', hout⟩
    · rw [List.mem_singleton.mp hmem] at hspends
      cases hspends

namespace UnspentIn

theorem nil : UnspentIn [] [] := by
  have hnone : ∀ place k, Ratchet.heldBy [] place ≠ some k := fun place k hk =>
    List.not_mem_nil (Ratchet.heldBy_eq_some_iff.mp hk).1
  constructor
  · exact ⟨fun place k hk => absurd hk (hnone place k), fun place k hk => absurd hk (hnone place k),
      fun place _ k hk => absurd hk (hnone place k), fun d hd => absurd hd List.not_mem_nil⟩
  · exact List.nodup_nil

/-- Ratchets may be dropped and put in any order. -/
theorem subperm (h : UnspentIn made ratchets) (hs : ratchets'.Subperm ratchets) :
    UnspentIn made ratchets' := by
  constructor
  · refine h.unspent.relocate id (fun place k hk => ?_) fun _ _ _ _ heq => heq
    obtain ⟨hmem, hk⟩ := Ratchet.heldBy_eq_some_iff.mp hk
    exact Ratchet.heldBy_eq_some_iff.mpr ⟨hs.subset hmem, hk⟩
  · obtain ⟨middle, hperm, hsub⟩ := hs
    exact hperm.nodup_iff.mp (h.nodup.sublist hsub)

/-- The keys of one ratchet, and those of the others beside them. -/
theorem beside (h : UnspentIn made (r :: others)) :
    Unspent made (r.keysBeside none (Ratchet.heldBy others)) := by
  have hnotMem : ∀ place : Ratchet × Slot, (Ratchet.heldBy others place).isSome →
      place.1 ≠ r := by
    intro place hsome heq
    obtain ⟨k, hk⟩ := Option.isSome_iff_exists.mp hsome
    have hmem := (Ratchet.heldBy_eq_some_iff.mp hk).1
    rw [heq] at hmem
    exact (List.nodup_cons.mp h.nodup).1 hmem
  refine h.unspent.relocate (Sum.elim (fun slot => (r, slot)) id) ?_ ?_
  · rintro (slot | place) k hk
    · exact Ratchet.heldBy_eq_some_iff.mpr ⟨List.mem_cons_self, hk⟩
    · obtain ⟨hmem, hk⟩ := Ratchet.heldBy_eq_some_iff.mp hk
      exact Ratchet.heldBy_eq_some_iff.mpr ⟨List.mem_cons_of_mem r hmem, hk⟩
  · rintro (slot | place) (slot' | place') hi hj heq
    · exact congrArg Sum.inl (Prod.mk.inj heq).2
    · exact absurd (congrArg Prod.fst heq).symm (hnotMem place' hj)
    · exact absurd (congrArg Prod.fst heq) (hnotMem place hi)
    · exact congrArg Sum.inr heq

/-- One ratchet, and the others beside it, all of them different. -/
theorem of_beside (h : Unspent made (r.keysBeside none (Ratchet.heldBy others)))
    (hn : others.Nodup) : UnspentIn made (r :: others) := by
  have hnotMem : r ∉ others := by
    intro hmem
    have heq := h.apart (.inl .root) (.inr (r, .root)) r.rootKey rfl (Ratchet.heldBy_root hmem)
    cases heq
  refine ⟨?_, List.nodup_cons.mpr ⟨hnotMem, hn⟩⟩
  refine h.relocate (fun place => if place.1 = r then .inl place.2 else .inr place) ?_ ?_
  · rintro ⟨r₁, slot⟩ k hheld
    obtain ⟨hmem, hk⟩ := Ratchet.heldBy_eq_some_iff.mp hheld
    dsimp only at hmem hk ⊢
    split
    · next heq =>
      rw [heq] at hk
      exact hk
    · next hne =>
      exact Ratchet.heldBy_eq_some_iff.mpr ⟨(List.mem_cons.mp hmem).resolve_left hne, hk⟩
  · rintro ⟨r₁, slot⟩ ⟨r₂, slot'⟩ - - heq
    dsimp only at heq
    split at heq
    · next h₁ =>
      split at heq
      · next h₂ => rw [h₁, h₂, Sum.inl.inj heq]
      · cases heq
    · split at heq
      · cases heq
      · exact Sum.inr.inj heq

/-- One of the ratchets reads a message: its key was not used before, by any of them. -/
theorem decrypt {m : RatchetMessage} {p : Bytes} (h : UnspentIn made (r :: others))
    (hr : r.decrypt m ent = .ok (p, r') ent') (hd : Distinct (made ++ r.derivedFor m ent)) :
    UnspentIn (made ++ r.derivedFor m ent) (r' :: others) ∧
      ∃ key, r.opens? m ent = some key ∧ .cipher key ∈ r.derivedFor m ent ∧
        .cipher key ∉ made := by
  obtain ⟨hunspent, hkey⟩ := h.beside.decrypt hr hd
  exact ⟨of_beside hunspent (List.nodup_cons.mp h.nodup).2, hkey⟩

/-- One of the ratchets sends a message, or cannot. -/
theorem encrypt (h : UnspentIn made (r :: others)) (p : Bytes)
    (hd : Distinct (made ++ r.derivedNext)) :
    UnspentIn (made ++ r.derivedNext) (endState (Ratchet.encrypt p) r :: others) :=
  of_beside (h.beside.encrypt p hd) (List.nodup_cons.mp h.nodup).2

/-- A responder starts one ratchet more, from a secret that was not agreed on before. -/
theorem respond (h : UnspentIn made ratchets) (hnew : .agreed secret ∉ made)
    (hd : Distinct (made ++ [.agreed secret])) (own : Secret) (maxSkip : UInt32) (ad : Block 64) :
    UnspentIn (made ++ [.agreed secret]) (Ratchet.respond secret own maxSkip ad :: ratchets) := by
  refine of_beside (h.unspent.agree hnew hd ?_) h.nodup
  intro slot k hk
  cases slot with
  | root => exact ⟨rfl, (Option.some.inj hk).symm⟩
  | skipped id => cases Std.ExtTreeMap.getElem?_empty.symm.trans hk
  | _ => cases hk

/-- An initiator starts one ratchet more, and derives its first chain at once. -/
theorem initiate (h : UnspentIn made ratchets) (hnew : .agreed secret ∉ made) {remote : PublicKey}
    {maxSkip : UInt32} {ad : Block 64}
    (hr : Ratchet.initiate secret remote maxSkip ad ent = .ok r ent')
    (hd : Distinct (made ++ [.agreed secret] ++
      [.root secret (r.secret.agree remote), .chain secret (r.secret.agree remote)])) :
    UnspentIn (made ++ [.agreed secret] ++
      [.root secret (r.secret.agree remote), .chain secret (r.secret.agree remote)])
      (r :: ratchets) := by
  obtain ⟨own, ent₁, -, hr⟩ := bind_eq_ok_iff.mp hr
  cases hr
  have hagreed := h.respond hnew (hd.subset (List.subset_append_left _ _)) own maxSkip ad
  refine of_beside (hagreed.beside.derive_pair_beside (a := .root) (b := .root) (c := .sending)
    rfl rfl rfl nofun hd ?_) h.nodup
  intro slot k hk
  cases slot with
  | root => exact .inr (.inl ⟨rfl, (Option.some.inj hk).symm⟩)
  | sending => exact .inr (.inr ⟨rfl, (Option.some.inj hk).symm⟩)
  | skipped id => cases Std.ExtTreeMap.getElem?_empty.symm.trans hk
  | _ => cases hk

end UnspentIn

end MultiDevice
