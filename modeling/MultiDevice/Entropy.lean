import MultiDevice.Error

/-!
# Randomness

A source of randomness answers each draw or refuses it. The bytes of a draw depend on how many
draws were answered before, so a refused draw loses nothing.

## Main definitions

* `Entropy`: a source and how far it has been used
* `Draw`: computations that may draw and may fail; what they drew stays drawn when they fail
* `Entropy.block`: the next `n` random bytes
-/

namespace MultiDevice

/-- A source of randomness and how far it has been used. -/
structure Entropy where
  /-- The bytes of the `k`-th answered draw, when `n` are asked for. -/
  supply : (k n : Nat) → Block n
  /-- Whether the `k`-th attempt is refused. -/
  refuses : Nat → Bool
  /-- How many draws were answered. -/
  drawn : Nat
  /-- How many draws were attempted. -/
  attempts : Nat

/-- A computation that may draw and may fail. -/
abbrev Draw : Type → Type := EStateM Error Entropy

/-- A computation that may fail and draws nothing. -/
def Draw.ofExcept {α : Type} : Except Error α → Draw α
  | .ok a => pure a
  | .error err => throw err

namespace Entropy

/-- An unused source that refuses nothing. -/
def ofSupply (supply : (k n : Nat) → Block n) : Entropy :=
  { supply, refuses := fun _ => false, drawn := 0, attempts := 0 }

/-- From now on the source answers `count` more draws, or all of them. -/
def allow (count : Option Nat) (e : Entropy) : Entropy :=
  { e with
    refuses := fun attempt =>
      match count with
      | none => false
      | some count => e.attempts + count ≤ attempt }

/-- The next `n` random bytes. -/
def block (n : Nat) : Draw (Block n) := fun e =>
  let e' := { e with attempts := e.attempts + 1 }
  if e.refuses e.attempts then .error .noRandomness e'
  else .ok (e.supply e.drawn n) { e' with drawn := e.drawn + 1 }

end Entropy

end MultiDevice
