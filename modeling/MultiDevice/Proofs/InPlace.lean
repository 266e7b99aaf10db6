import MultiDevice.Proofs.Action

/-!
# Work in place

A computation that changes a state step by step and fails on the way leaves the steps done so far.
The functions of this library hand over a new state only when they succeed, so what they leave when
they fail is nothing. Where that is the question, the steps are written as work in place, which is
then compared with the function that it comes to.

## Main definitions

* `InPlace`: work on a state, of which what was changed before a failure stays changed
* `InPlace.outcome`, `InPlace.onCopy`: what work comes to, and work on a copy
* `InPlace.ofDraw`, `InPlace.update`: a function as work that changes the state only when it
  succeeds

## Main results

* `InPlace.outcome_bind`: what steps one after the other come to
* `InPlace.ofDraw_eq_error_iff`: where a function fails, the state is as it was
-/

namespace MultiDevice

/-- Work on a state that draws and may fail. What was changed before a failure stays changed. -/
abbrev InPlace (σ : Type) : Type → Type := EStateM Error (σ × Entropy)

namespace InPlace

variable {σ α β : Type}

/-- Changes the state. -/
def amend (f : σ → σ) : InPlace σ Unit := fun (s, e) => .ok () (f s, e)

/-- Looks at the state. -/
def look : InPlace σ σ := fun (s, e) => .ok s (s, e)

/-- Draws, and leaves the state. -/
def draw (x : Draw α) : InPlace σ α := fun (s, e) =>
  match x e with
  | .ok a e => .ok a (s, e)
  | .error err e => .error err (s, e)

/-- A function of the state as work that changes the state when it succeeds and not otherwise. -/
def ofDraw (f : σ → Draw (α × σ)) : InPlace σ α := fun (s, e) =>
  match f s e with
  | .ok (a, s) e => .ok a (s, e)
  | .error err e => .error err (s, e)

/-- A function that answers nothing but the new state, as such work. -/
def update (f : σ → Draw σ) : InPlace σ Unit := fun (s, e) =>
  match f s e with
  | .ok s e => .ok () (s, e)
  | .error err e => .error err (s, e)

/-- What work on a state comes to: the answer and the new state, or a failure. What it leaves when
it fails is not part of it. -/
def outcome (x : InPlace σ α) (s : σ) : Draw (α × σ) := fun e =>
  match x (s, e) with
  | .ok a (s, e) => .ok (a, s) e
  | .error err (_, e) => .error err e

/-- Work on a copy of the state, which takes its place when the work succeeds. -/
def onCopy (x : InPlace σ α) : InPlace σ α := fun (s, e) =>
  match x (s, e) with
  | .ok a t => .ok a t
  | .error err (_, e) => .error err (s, e)

section Outcome

variable {x : InPlace σ α} {s : σ} {e : Entropy}

theorem outcome_of_ok {a : α} {t : σ × Entropy} (h : x (s, e) = .ok a t) :
    x.outcome s e = .ok (a, t.1) t.2 := by
  simp only [outcome, h]

theorem outcome_of_error {err : Error} {t : σ × Entropy} (h : x (s, e) = .error err t) :
    x.outcome s e = .error err t.2 := by
  simp only [outcome, h]

theorem look_bind (f : σ → InPlace σ β) : (look >>= f) (s, e) = f s (s, e) := rfl

theorem amend_bind (g : σ → σ) (f : Unit → InPlace σ β) :
    (amend g >>= f) (s, e) = f () (g s, e) := rfl

theorem draw_bind (x : Draw α) (f : α → InPlace σ β) :
    (draw x >>= f) (s, e) =
      match x e with
      | .ok a e => f a (s, e)
      | .error err e => .error err (s, e) := by
  cases h : x e with
  | ok a e' => exact bind_of_ok (by simp only [draw, h])
  | error err e' => exact bind_of_error (by simp only [draw, h])

/-- On a copy only the outcome counts. -/
theorem onCopy_eq (x : InPlace σ α) : onCopy x = ofDraw x.outcome := by
  funext ⟨s, e⟩
  cases h : x (s, e) with
  | ok a t => simp only [onCopy, ofDraw, h, outcome_of_ok h]
  | error err t => simp only [onCopy, ofDraw, h, outcome_of_error h]

theorem ofDraw_of_ok {f : σ → Draw (α × σ)} {p : α × σ} {e' : Entropy} (h : f s e = .ok p e') :
    ofDraw f (s, e) = .ok p.1 (p.2, e') := by
  simp only [ofDraw, h]

theorem ofDraw_of_error {f : σ → Draw (α × σ)} {err : Error} {e' : Entropy}
    (h : f s e = .error err e') : ofDraw f (s, e) = .error err (s, e') := by
  simp only [ofDraw, h]

/-- Where a function of the state fails, the state is as it was. -/
theorem ofDraw_eq_error_iff {f : σ → Draw (α × σ)} {err : Error} {t : σ × Entropy} :
    ofDraw f (s, e) = .error err t ↔ ∃ e', f s e = .error err e' ∧ t = (s, e') := by
  cases h : f s e with
  | ok p e' =>
    rw [ofDraw_of_ok h]
    simp
  | error err' e' =>
    rw [ofDraw_of_error h]
    simp [eq_comm, and_assoc]

theorem update_of_ok {f : σ → Draw σ} {s' : σ} {e' : Entropy} (h : f s e = .ok s' e') :
    update f (s, e) = .ok () (s', e') := by
  simp only [update, h]

theorem update_of_error {f : σ → Draw σ} {err : Error} {e' : Entropy} (h : f s e = .error err e') :
    update f (s, e) = .error err (s, e') := by
  simp only [update, h]

theorem update_eq_ok_iff {f : σ → Draw σ} {t : σ × Entropy} :
    update f (s, e) = .ok () t ↔ f s e = .ok t.1 t.2 := by
  cases h : f s e with
  | ok s' e' =>
    rw [update_of_ok h]
    simp [Prod.ext_iff]
  | error err e' =>
    rw [update_of_error h]
    simp

theorem update_eq_error_iff {f : σ → Draw σ} {err : Error} {t : σ × Entropy} :
    update f (s, e) = .error err t ↔ ∃ e', f s e = .error err e' ∧ t = (s, e') := by
  cases h : f s e with
  | ok s' e' =>
    rw [update_of_ok h]
    simp
  | error err' e' =>
    rw [update_of_error h]
    simp [eq_comm, and_assoc]

/-- What holds after an update that succeeds, and where it fails, holds after it. -/
theorem endState_update_induction {p : σ × Entropy → Prop} {f : σ → Draw σ}
    (hok : ∀ s' e', f s e = .ok s' e' → p (s', e'))
    (herr : ∀ err e', f s e = .error err e' → p (s, e')) : p (endState (update f) (s, e)) := by
  cases h : f s e with
  | ok s' e' =>
    rw [endState_of_ok (update_of_ok h)]
    exact hok s' e' h
  | error err e' =>
    rw [endState_of_error (update_of_error h)]
    exact herr err e' h

/-- Without its answer a function of the state is an update. -/
theorem forget_ofDraw (f : σ → Draw (α × σ)) :
    (fun _ => ()) <$> ofDraw f = update fun s => Prod.snd <$> f s := by
  funext ⟨s, e⟩
  cases h : f s e with
  | ok p e' =>
    rw [map_of_ok (ofDraw_of_ok h)]
    exact (update_of_ok (f := fun s => Prod.snd <$> f s) (map_of_ok h)).symm
  | error err e' =>
    rw [map_of_error (ofDraw_of_error h)]
    exact (update_of_error (f := fun s => Prod.snd <$> f s) (map_of_error h)).symm

theorem outcome_amend (f : σ → σ) (s : σ) : (amend f).outcome s = pure ((), f s) := rfl

theorem outcome_look (s : σ) : look.outcome s = pure (s, s) := rfl

theorem outcome_draw (x : Draw α) (s : σ) : (draw x).outcome s = (fun a => (a, s)) <$> x := by
  funext e
  cases h : x e with
  | ok a t =>
    rw [map_of_ok h]
    exact outcome_of_ok (t := (s, t)) (by simp only [draw, h])
  | error err t =>
    rw [map_of_error h]
    exact outcome_of_error (t := (s, t)) (by simp only [draw, h])

theorem outcome_bind (x : InPlace σ α) (f : α → InPlace σ β) (s : σ) :
    (x >>= f).outcome s = x.outcome s >>= fun p => (f p.1).outcome p.2 := by
  funext e
  cases h : x (s, e) with
  | ok a t =>
    rw [bind_of_ok (outcome_of_ok h), outcome, bind_of_ok h]
    rfl
  | error err t =>
    rw [bind_of_error (outcome_of_error h)]
    exact outcome_of_error (bind_of_error h)

end Outcome

end InPlace

end MultiDevice
