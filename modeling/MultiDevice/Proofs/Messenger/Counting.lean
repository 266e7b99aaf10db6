import MultiDevice.Proofs.Key.Numbering
import MultiDevice.Proofs.Messenger.Chores

/-!
# Counting the keys that a device makes

Upkeep draws for every key that it makes, so at most as many numbers are given out as there are
draws. As long as a device has made fewer keys than there are numbers, no number comes round again.

## Main definitions

* `Counts`: an invariant with a count is kept, the count growing with the draws
* `Request.keysDrawn`, `Scene.keysDrawn`: how many keys a device makes for itself

## Main results

* `Request.counts_of_isUpkeep`: what every chore keeps and a new start keeps, upkeep keeps
-/

namespace MultiDevice

/-- From one scene to another, an invariant with a count is kept: the count grows with the draws, as
long as it stays below the numbers that there are. -/
structure Counts (p : Nat → Scene → Prop) (s t : Scene) : Prop where
  drawn : s.entropy.drawn ≤ t.entropy.drawn
  keeps : ∀ n, p n s → n + (t.entropy.drawn - s.entropy.drawn) < UInt32.size →
    p (n + (t.entropy.drawn - s.entropy.drawn)) t

namespace Counts

variable {p : Nat → Scene → Prop} {s t u : Scene}

theorem refl (s : Scene) : Counts p s s := by
  refine ⟨Nat.le_refl _, fun n hs _ => ?_⟩
  rw [Nat.sub_self]
  exact hs

/-- What draws and keeps the invariant for as many or more. -/
theorem of_mono (hdrawn : s.entropy.drawn ≤ t.entropy.drawn)
    (hmono : ∀ n m, n ≤ m → p n t → p m t) (h : ∀ n, p n s → p n t) : Counts p s t :=
  ⟨hdrawn, fun n hs _ => hmono n _ (Nat.le_add_right _ _) (h n hs)⟩

theorem trans (h : Counts p s t) (h' : Counts p t u) : Counts p s u := by
  have hbefore := h.drawn
  have hafter := h'.drawn
  refine ⟨Nat.le_trans hbefore hafter, fun n hs hroom => ?_⟩
  have hsum : n + (u.entropy.drawn - s.entropy.drawn) =
      n + (t.entropy.drawn - s.entropy.drawn) + (u.entropy.drawn - t.entropy.drawn) := by omega
  rw [hsum] at hroom ⊢
  exact h'.keeps _ (h.keeps n hs (by omega)) hroom

end Counts

section Upkeep

variable [CipherSuite] {p : Nat → Scene → Prop} {s t : Scene}

theorem Chore.drawn_le (h : Chore s t) : s.entropy.drawn ≤ t.entropy.drawn := by
  cases h with
  | waste e he => exact he.drawn
  | fill target => exact (OneTimePreKeyPool.replenish_later target _ _).drawn
  | create key r e hnone hr =>
    change s.entropy.drawn ≤ e.drawn
    rw [SignedPreKeyRing.drawn_of_create hr]
    exact Nat.le_succ _
  | _ => exact Nat.le_refl _

/-- What every chore keeps, a sequence of chores keeps. -/
theorem Chores.counts (chore : ∀ s t, Chore s t → Counts p s t) (h : Chores s t) :
    Counts p s t :=
  h.induction (p := fun t => Counts p s t) (fun _ _ hchore hs => hs.trans (chore _ _ hchore))
    (.refl s)

/-- What every chore keeps, and a device that starts afresh keeps, upkeep keeps. -/
theorem Request.counts_of_isUpkeep (chore : ∀ s t, Chore s t → Counts p s t)
    (restart : ∀ s t, Restart s t → Counts p s t) {request : Request} (h : request.IsUpkeep)
    (hfiled : s.Filed) : Counts p s (request.perform s) := by
  obtain ⟨t, rfl | hrestart, hchores⟩ := request.perform_chores h hfiled
  · exact hchores.counts chore
  · exact (restart s t hrestart).trans (hchores.counts chore)

instance : DecidablePred Request.IsUpkeep
  | .publishBundle | .publishIfNeeded | .purgeDevices | .rotate | .rotateIfDue | .prune
  | .regenerate => isTrue trivial
  | .encryptFor .. | .decrypt .. | .decideTrust .. | .resetSession .. | .surroundings .. =>
    isFalse id

/-- How many keys a device makes for itself at a request, its pre-keys and its identity. -/
def Request.keysDrawn (request : Request) (s : Scene) : Nat :=
  if request.IsUpkeep then (request.perform s).entropy.drawn - s.entropy.drawn else 0

/-- How many keys a device makes for itself in a run. -/
def Scene.keysDrawn : List Request → Scene → Nat
  | [], _ => 0
  | request :: rest, s => request.keysDrawn s + keysDrawn rest (request.perform s)

end Upkeep

end MultiDevice
