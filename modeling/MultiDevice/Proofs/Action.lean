import MultiDevice.Messenger.Basic

/-!
# Where actions end

A computation that keeps state ends in a state whether it succeeds or fails. What it leaves alone is
composed from what its parts leave alone.

## Main definitions

* `endState`: the state that a computation ends in
* `answer?`, `failure?`: its answer if it succeeds, and what it fails with if it fails
* `Leaves`: a part of the state that a computation does not change
* `Ensures`: what holds after a computation, whether it succeeds or fails

## Main results

* `bind_eq_ok_iff`, `bind_eq_error_iff`: how a composed computation succeeds and fails
* `Leaves.bind`: what both parts leave alone, the whole leaves alone
* `Leaves.changeStore`: what is not in the store, a change of the store leaves alone
-/

namespace MultiDevice

section Computation

variable {ε σ α β γ : Type}

/-- The state that a computation ends in, whether it succeeds or fails. -/
def endState (x : EStateM ε σ α) (s : σ) : σ :=
  match x s with
  | .ok _ s => s
  | .error _ s => s

theorem endState_of_ok {x : EStateM ε σ α} {s s' : σ} {a : α} (h : x s = .ok a s') :
    endState x s = s' := by
  simp only [endState, h]

theorem endState_of_error {x : EStateM ε σ α} {s s' : σ} {err : ε} (h : x s = .error err s') :
    endState x s = s' := by
  simp only [endState, h]

/-- What a computation answers, if it succeeds. -/
def answer? (x : EStateM ε σ α) (s : σ) : Option α :=
  match x s with
  | .ok a _ => some a
  | .error _ _ => none

theorem answer?_of_ok {x : EStateM ε σ α} {s s' : σ} {a : α} (h : x s = .ok a s') :
    answer? x s = some a := by
  simp only [answer?, h]

theorem answer?_of_error {x : EStateM ε σ α} {s s' : σ} {err : ε} (h : x s = .error err s') :
    answer? x s = none := by
  simp only [answer?, h]

theorem exists_of_answer? {x : EStateM ε σ α} {s : σ} {a : α} (h : answer? x s = some a) :
    ∃ t, x s = .ok a t := by
  cases hx : x s with
  | ok b t =>
    rw [answer?_of_ok hx] at h
    cases h
    exact ⟨t, rfl⟩
  | error err t =>
    rw [answer?_of_error hx] at h
    cases h

/-- What a computation fails with, if it fails. -/
def failure? (x : EStateM ε σ α) (s : σ) : Option ε :=
  match x s with
  | .ok _ _ => none
  | .error err _ => some err

theorem failure?_of_ok {x : EStateM ε σ α} {s s' : σ} {a : α} (h : x s = .ok a s') :
    failure? x s = none := by
  simp only [failure?, h]

theorem failure?_of_error {x : EStateM ε σ α} {s s' : σ} {err : ε} (h : x s = .error err s') :
    failure? x s = some err := by
  simp only [failure?, h]

theorem bind_of_ok {x : EStateM ε σ α} {f : α → EStateM ε σ β} {s s' : σ} {a : α}
    (h : x s = .ok a s') : (x >>= f) s = f a s' := by
  change EStateM.bind x f s = _
  simp only [EStateM.bind, h]

theorem bind_of_error {x : EStateM ε σ α} {f : α → EStateM ε σ β} {s s' : σ} {err : ε}
    (h : x s = .error err s') : (x >>= f) s = .error err s' := by
  change EStateM.bind x f s = _
  simp only [EStateM.bind, h]

/-- What comes after reading the state gets it. -/
theorem bind_get (f : σ → EStateM ε σ β) (s : σ) : (get >>= f) s = f s s := rfl

theorem bind_eq_ok_iff {x : EStateM ε σ α} {f : α → EStateM ε σ β} {s s' : σ} {b : β} :
    (x >>= f) s = .ok b s' ↔ ∃ a t, x s = .ok a t ∧ f a t = .ok b s' := by
  cases h : x s with
  | ok a t => simp [bind_of_ok h, and_assoc]
  | error err t => simp [bind_of_error h]

theorem bind_eq_error_iff {x : EStateM ε σ α} {f : α → EStateM ε σ β} {s s' : σ} {err : ε} :
    (x >>= f) s = .error err s' ↔
      x s = .error err s' ∨ ∃ a t, x s = .ok a t ∧ f a t = .error err s' := by
  cases h : x s with
  | ok a t => simp [bind_of_ok h, and_assoc]
  | error err' t => simp [bind_of_error h]

theorem map_of_ok {x : EStateM ε σ α} {f : α → β} {s s' : σ} {a : α} (h : x s = .ok a s') :
    (f <$> x) s = .ok (f a) s' := by
  change EStateM.map f x s = _
  simp only [EStateM.map, h]

theorem map_of_error {x : EStateM ε σ α} {f : α → β} {s s' : σ} {err : ε}
    (h : x s = .error err s') : (f <$> x) s = .error err s' := by
  change EStateM.map f x s = _
  simp only [EStateM.map, h]

/-- Computations that end alike do so after their answer is mapped. -/
theorem map_congr {x y : EStateM ε σ α} {s t : σ} (f : α → β) (h : x s = y t) :
    (f <$> x) s = (f <$> y) t := by
  change EStateM.map f x s = EStateM.map f y t
  simp only [EStateM.map, h]

theorem map_eq_ok_iff {x : EStateM ε σ α} {f : α → β} {s s' : σ} {b : β} :
    (f <$> x) s = .ok b s' ↔ ∃ a, x s = .ok a s' ∧ f a = b := by
  cases h : x s with
  | ok a t => simp [map_of_ok h, and_assoc, and_comm]
  | error err t => simp [map_of_error h]

theorem map_eq_error_iff {x : EStateM ε σ α} {f : α → β} {s s' : σ} {err : ε} :
    (f <$> x) s = .error err s' ↔ x s = .error err s' := by
  cases h : x s with
  | ok a t => simp [map_of_ok h]
  | error err' t => simp [map_of_error h]

theorem endState_map (f : α → β) (x : EStateM ε σ α) (s : σ) :
    endState (f <$> x) s = endState x s := by
  cases h : x s with
  | ok a t => rw [endState_of_ok h, endState_of_ok (map_of_ok h)]
  | error err t => rw [endState_of_error h, endState_of_error (map_of_error h)]

theorem answer?_map (f : α → β) (x : EStateM ε σ α) (s : σ) :
    answer? (f <$> x) s = (answer? x s).map f := by
  cases h : x s with
  | ok a t => rw [answer?_of_ok h, answer?_of_ok (map_of_ok h), Option.map_some]
  | error err t => rw [answer?_of_error h, answer?_of_error (map_of_error h), Option.map_none]

theorem failure?_map (f : α → β) (x : EStateM ε σ α) (s : σ) :
    failure? (f <$> x) s = failure? x s := by
  cases h : x s with
  | ok a t => rw [failure?_of_ok h, failure?_of_ok (map_of_ok h)]
  | error err t => rw [failure?_of_error h, failure?_of_error (map_of_error h)]

theorem endState_bind_of_ok {x : EStateM ε σ α} {f : α → EStateM ε σ β} {s s' : σ} {a : α}
    (h : x s = .ok a s') : endState (x >>= f) s = endState (f a) s' := by
  simp only [endState, bind_of_ok h]

theorem endState_bind_of_error {x : EStateM ε σ α} {f : α → EStateM ε σ β} {s s' : σ} {err : ε}
    (h : x s = .error err s') : endState (x >>= f) s = s' := by
  simp only [endState, bind_of_error h]

theorem endState_bind_get (f : σ → EStateM ε σ β) (s : σ) :
    endState (get >>= f) s = endState (f s) s := rfl

/-- What holds where a computation ends holds where it goes on to, if what follows keeps it. -/
theorem endState_bind_induction {p : σ → Prop} {x : EStateM ε σ α} {f : α → EStateM ε σ β} {s : σ}
    (hx : p (endState x s)) (hf : ∀ a t, x s = .ok a t → p t → p (endState (f a) t)) :
    p (endState (x >>= f) s) := by
  cases h : x s with
  | ok a t =>
    rw [endState_of_ok h] at hx
    rw [endState_bind_of_ok h]
    exact hf a t h hx
  | error err t =>
    rw [endState_of_error h] at hx
    rw [endState_bind_of_error h]
    exact hx

/-- The part `view` of the state is the same after `x` as before. -/
def Leaves (view : σ → γ) (x : EStateM ε σ α) : Prop := ∀ s, view (endState x s) = view s

namespace Leaves

variable {view : σ → γ}

theorem eq_of_ok {x : EStateM ε σ α} (hx : Leaves view x) {s s' : σ} {a : α}
    (h : x s = .ok a s') : view s' = view s := by
  rw [← hx s, endState_of_ok h]

theorem eq_of_error {x : EStateM ε σ α} (hx : Leaves view x) {s s' : σ} {err : ε}
    (h : x s = .error err s') : view s' = view s := by
  rw [← hx s, endState_of_error h]

protected theorem pure (a : α) : Leaves view (pure a : EStateM ε σ α) := fun _ => rfl

protected theorem throw (err : ε) : Leaves view (throw err : EStateM ε σ α) := fun _ => rfl

protected theorem get : Leaves view (get : EStateM ε σ σ) := fun _ => rfl

protected theorem modify {f : σ → σ} (hf : ∀ s, view (f s) = view s) :
    Leaves view (modify f : EStateM ε σ PUnit) := hf

theorem bind {x : EStateM ε σ α} {f : α → EStateM ε σ β} (hx : Leaves view x)
    (hf : ∀ a, Leaves view (f a)) : Leaves view (x >>= f) := by
  intro s
  exact endState_bind_induction (p := fun t => view t = view s) (hx s) fun a t _ ht =>
    (hf a t).trans ht

theorem map {x : EStateM ε σ α} (f : α → β) (hx : Leaves view x) : Leaves view (f <$> x) := by
  intro s
  rw [endState_map, hx s]

theorem ite {c : Prop} [Decidable c] {x y : EStateM ε σ α} (hx : Leaves view x)
    (hy : Leaves view y) : Leaves view (if c then x else y) := by
  split
  · exact hx
  · exact hy

end Leaves

/-- From a state as in `pre` the computation succeeds with an answer and a state as in `post`, or
fails with a state as in `fail`. -/
def Ensures (pre : σ → Prop) (x : EStateM ε σ α) (post : α → σ → Prop) (fail : σ → Prop) : Prop :=
  ∀ s, pre s → match x s with
    | .ok a t => post a t
    | .error _ t => fail t

namespace Ensures

variable {pre : σ → Prop} {post : β → σ → Prop} {fail : σ → Prop}

theorem bind {x : EStateM ε σ α} {f : α → EStateM ε σ β} {q : α → σ → Prop}
    (hx : Ensures pre x q fail) (hf : ∀ a, Ensures (q a) (f a) post fail) :
    Ensures pre (x >>= f) post fail := by
  intro s hs
  have hx := hx s hs
  cases h : x s with
  | ok a t =>
    rw [h] at hx
    rw [bind_of_ok h]
    exact hf a t hx
  | error err t =>
    rw [h] at hx
    rw [bind_of_error h]
    exact hx

theorem get_bind {f : σ → EStateM ε σ β}
    (hf : ∀ s, pre s → Ensures (fun t => t = s) (f s) post fail) :
    Ensures pre (get >>= f) post fail := by
  intro s hs
  rw [bind_get]
  exact hf s hs s rfl

protected theorem pure {b : β} (h : ∀ s, pre s → post b s) :
    Ensures pre (pure b : EStateM ε σ β) post fail := h

protected theorem throw {err : ε} (h : ∀ s, pre s → fail s) :
    Ensures pre (throw err : EStateM ε σ β) post fail := h

theorem modify {q : PUnit → σ → Prop} {f : σ → σ} (h : ∀ s, pre s → q ⟨⟩ (f s)) :
    Ensures pre (modify f : EStateM ε σ PUnit) q fail := h

theorem weaken {pre' : σ → Prop} {x : EStateM ε σ β} (hx : Ensures pre' x post fail)
    (h : ∀ s, pre s → pre' s) : Ensures pre x post fail := fun s hs => hx s (h s hs)

theorem mono {post' : β → σ → Prop} {fail' : σ → Prop} {x : EStateM ε σ β}
    (hx : Ensures pre x post fail) (hpost : ∀ b s, post b s → post' b s)
    (hfail : ∀ s, fail s → fail' s) : Ensures pre x post' fail' := by
  intro s hs
  have hx := hx s hs
  cases h : x s with
  | ok b t =>
    rw [h] at hx
    exact hpost b t hx
  | error err t =>
    rw [h] at hx
    exact hfail t hx

/-- A computation that succeeds is only judged by its answer and the state after it. -/
theorem of_ok {x : EStateM ε σ β} (h : ∀ s, pre s → ∃ b t, x s = .ok b t ∧ post b t) :
    Ensures pre x post fail := by
  intro s hs
  obtain ⟨b, t, hx, hpost⟩ := h s hs
  rw [hx]
  exact hpost

theorem endState {x : EStateM ε σ β} (hx : Ensures pre x post fail)
    (hpost : ∀ b s, post b s → fail s)
    {s : σ} (hs : pre s) : fail (endState x s) := by
  have hx := hx s hs
  cases h : x s with
  | ok b t =>
    rw [h] at hx
    rw [endState_of_ok h]
    exact hpost b t hx
  | error err t =>
    rw [h] at hx
    rw [endState_of_error h]
    exact hx

end Ensures

/-- What a computation does not change holds after it if it held before. -/
theorem Leaves.ensures {p : σ → Prop} {x : EStateM ε σ α} (hx : Leaves p x) :
    Ensures p x (fun _ => p) p := by
  intro s hs
  cases h : x s with
  | ok a t => exact (hx.eq_of_ok h).mpr hs
  | error err t => exact (hx.eq_of_error h).mpr hs

end Computation

theorem Draw.ofExcept_bind {α β : Type} (x : Except Error α) (f : α → Except Error β) :
    Draw.ofExcept (x >>= f) = Draw.ofExcept x >>= fun a => Draw.ofExcept (f a) := by
  cases x <;> rfl

theorem Draw.ofExcept_eq_ok_iff {α : Type} {x : Except Error α} {a : α} {e e' : Entropy} :
    Draw.ofExcept x e = .ok a e' ↔ x = .ok a ∧ e = e' := by
  cases x with
  | ok b =>
    change EStateM.Result.ok b e = .ok a e' ↔ _
    simp
  | error err =>
    change EStateM.Result.error err e = .ok a e' ↔ _
    simp

theorem Action.ofExcept_eq_ok_iff {α : Type} {x : Except Error α} {a : α} {s s' : Scene} :
    Action.ofExcept x s = .ok a s' ↔ x = .ok a ∧ s = s' := by
  cases x with
  | ok b =>
    change EStateM.Result.ok b s = .ok a s' ↔ _
    simp
  | error err =>
    change EStateM.Result.error err s = .ok a s' ↔ _
    simp

theorem Action.ofExcept_eq_error_iff {α : Type} {x : Except Error α} {err : Error} {s s' : Scene} :
    Action.ofExcept x s = .error err s' ↔ x = .error err ∧ s = s' := by
  cases x with
  | ok b =>
    change EStateM.Result.ok b s = .error err s' ↔ _
    simp
  | error err' =>
    change EStateM.Result.error err' s = .error err s' ↔ _
    simp

theorem Action.draw_eq_ok_iff {α : Type} {x : Draw α} {a : α} {s s' : Scene} :
    Action.draw x s = .ok a s' ↔ ∃ e, x s.entropy = .ok a e ∧ s' = { s with entropy := e } := by
  unfold Action.draw
  cases x s.entropy with
  | ok b e =>
    constructor
    · rintro ⟨⟩
      exact ⟨e, rfl, rfl⟩
    · rintro ⟨e', heq, rfl⟩
      cases heq
      rfl
  | error err e =>
    constructor
    · rintro ⟨⟩
    · rintro ⟨e', heq, -⟩
      cases heq

theorem Action.draw_eq_error_iff {α : Type} {x : Draw α} {err : Error} {s s' : Scene} :
    Action.draw x s = .error err s' ↔
      ∃ e, x s.entropy = .error err e ∧ s' = { s with entropy := e } := by
  unfold Action.draw
  cases x s.entropy with
  | ok b e =>
    constructor
    · rintro ⟨⟩
    · rintro ⟨e', heq, -⟩
      cases heq
  | error err' e =>
    constructor
    · rintro ⟨⟩
      exact ⟨e, rfl, rfl⟩
    · rintro ⟨e', heq, rfl⟩
      cases heq
      rfl

theorem Action.changeStore_of_ok {α : Type} {f : Store → Draw (α × Store)} {s : Scene} {a : α}
    {st : Store} {e : Entropy} (h : f s.messenger.store s.entropy = .ok (a, st) e) :
    Action.changeStore f s = .ok a { s.setStore st with entropy := e } := by
  have hd : Action.draw (f s.messenger.store) s = .ok (a, st) { s with entropy := e } := by
    simp only [Action.draw, h]
  unfold changeStore
  rw [bind_get]
  exact bind_of_ok hd

theorem Action.changeStore_of_error {α : Type} {f : Store → Draw (α × Store)} {s : Scene}
    {err : Error} {e : Entropy} (h : f s.messenger.store s.entropy = .error err e) :
    Action.changeStore f s = .error err { s with entropy := e } := by
  have hd : Action.draw (f s.messenger.store) s = .error err { s with entropy := e } := by
    simp only [Action.draw, h]
  unfold changeStore
  rw [bind_get]
  exact bind_of_error hd

/-- A change of the store that succeeds keeps the changed store. -/
theorem Action.changeStore_eq_ok_iff {α : Type} {f : Store → Draw (α × Store)} {s s' : Scene}
    {a : α} :
    Action.changeStore f s = .ok a s' ↔ ∃ st e, f s.messenger.store s.entropy = .ok (a, st) e ∧
      s' = { s.setStore st with entropy := e } := by
  cases h : f s.messenger.store s.entropy with
  | ok p e =>
    obtain ⟨b, st⟩ := p
    rw [changeStore_of_ok h]
    constructor
    · rintro ⟨⟩
      exact ⟨st, e, rfl, rfl⟩
    · rintro ⟨st', e', heq, rfl⟩
      cases heq
      rfl
  | error err e =>
    rw [changeStore_of_error h]
    constructor
    · rintro ⟨⟩
    · rintro ⟨st', e', heq, rfl⟩
      cases heq

/-- A change of the store that fails changes nothing but the randomness. -/
theorem Action.changeStore_eq_error_iff {α : Type} {f : Store → Draw (α × Store)} {s s' : Scene}
    {err : Error} :
    Action.changeStore f s = .error err s' ↔ ∃ e, f s.messenger.store s.entropy = .error err e ∧
      s' = { s with entropy := e } := by
  cases h : f s.messenger.store s.entropy with
  | ok p e =>
    obtain ⟨b, st⟩ := p
    rw [changeStore_of_ok h]
    constructor
    · rintro ⟨⟩
    · rintro ⟨e', heq, rfl⟩
      cases heq
  | error err' e =>
    rw [changeStore_of_error h]
    constructor
    · rintro ⟨⟩
      exact ⟨e, rfl, rfl⟩
    · rintro ⟨e', heq, rfl⟩
      cases heq
      rfl

namespace Ensures

variable {α : Type} {pre : Scene → Prop} {post : α → Scene → Prop} {fail : Scene → Prop}

theorem ofExcept {x : Except Error α} (hok : ∀ a s, x = .ok a → pre s → post a s)
    (hfail : ∀ s, pre s → fail s) : Ensures pre (Action.ofExcept x) post fail := by
  cases x with
  | ok a => exact fun s hs => hok a s rfl hs
  | error err => exact hfail

theorem changeStore {f : Store → Draw (α × Store)}
    (hok : ∀ s a st e, pre s → f s.messenger.store s.entropy = .ok (a, st) e →
      post a { s.setStore st with entropy := e })
    (hfail : ∀ s err e, pre s → f s.messenger.store s.entropy = .error err e →
      fail { s with entropy := e }) :
    Ensures pre (Action.changeStore f) post fail := by
  intro s hs
  cases h : Action.changeStore f s with
  | ok a t =>
    obtain ⟨st, e, hf, rfl⟩ := Action.changeStore_eq_ok_iff.mp h
    exact hok s a st e hs hf
  | error err t =>
    obtain ⟨e, hf, rfl⟩ := Action.changeStore_eq_error_iff.mp h
    exact hfail s err e hs hf

end Ensures

namespace Leaves

variable {α γ : Type} {view : Scene → γ}

theorem ofExcept (x : Except Error α) : Leaves view (Action.ofExcept x) := by
  cases x with
  | ok a => exact Leaves.pure a
  | error err => exact Leaves.throw err

theorem draw (x : Draw α) (hv : ∀ s e, view { s with entropy := e } = view s) :
    Leaves view (Action.draw x) := by
  intro s
  cases h : x s.entropy <;> simp only [endState, Action.draw, h, hv]

theorem onStore (x : EStateM Error (Store × Entropy) α)
    (hv : ∀ s st e, (∃ e', st = (endState x (s.messenger.store, e')).1) →
      view { s.setStore st with entropy := e } = view s) :
    Leaves view (Action.onStore x) := by
  intro s
  have h := hv s (endState x (s.messenger.store, s.entropy)).1
    (endState x (s.messenger.store, s.entropy)).2 ⟨_, rfl⟩
  cases hx : x (s.messenger.store, s.entropy) <;>
    simpa only [endState, Action.onStore, hx] using h

/-- A change of the store leaves alone what the changed store has in common with the old one. -/
theorem changeStore (f : Store → Draw (α × Store))
    (he : ∀ s e, view { s with entropy := e } = view s)
    (hv : ∀ s a st e e', f s.messenger.store e = .ok (a, st) e' → view (s.setStore st) = view s) :
    Leaves view (Action.changeStore f) := by
  intro s
  cases h : f s.messenger.store s.entropy with
  | ok a e =>
    obtain ⟨a, st⟩ := a
    rw [endState_of_ok (Action.changeStore_of_ok h), he, hv s a st _ _ h]
  | error err e => rw [endState_of_error (Action.changeStore_of_error h), he]

end Leaves

end MultiDevice
