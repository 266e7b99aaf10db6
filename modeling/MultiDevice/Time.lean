/-!
# Points in time and spans of time

Both count nanoseconds. A point in time is measured from the epoch and is representable when its
whole seconds fit in 64 signed bits; only a sum of a point and a span can leave that range.

## Main definitions

* `Duration`: a span, with its written form `Duration.text`
* `Time`: a point, with `Time.add?` and `Time.since`
-/

namespace MultiDevice

/-- A span of time. -/
structure Duration where
  /-- Its length in nanoseconds. -/
  nanoseconds : Nat
  deriving DecidableEq, Repr

namespace Duration

/-- Nanoseconds in a second. -/
def perSecond : Nat := 1000000000

/-- A span of whole seconds. -/
def ofSeconds (n : Nat) : Duration := ⟨n * perSecond⟩

/-- A span of whole days. -/
def ofDays (n : Nat) : Duration := ofSeconds (n * 86400)

/-- No time at all. -/
def zero : Duration := ⟨0⟩

/-- Two spans one after the other. -/
def add (a b : Duration) : Duration := ⟨a.nanoseconds + b.nanoseconds⟩

/-- A decimal fraction of `width` digits without its closing zeros, after a point; nothing when no
digit is left. -/
def fractionText (width n : Nat) : String :=
  let digits := (toString n).toList
  let padded := List.replicate (width - digits.length) '0' ++ digits
  match (padded.reverse.dropWhile (· == '0')).reverse with
  | [] => ""
  | ds => String.ofList ('.' :: ds)

/-- The span in the largest of the units `s`, `ms`, `µs` and `ns` that it reaches, with as many
decimals as it needs. -/
def text (d : Duration) : String :=
  let inUnit (size width : Nat) (name : String) : String :=
    toString (d.nanoseconds / size) ++ fractionText width (d.nanoseconds % size) ++ name
  if perSecond ≤ d.nanoseconds then inUnit perSecond 9 "s"
  else if 1000000 ≤ d.nanoseconds then inUnit 1000000 6 "ms"
  else if 1000 ≤ d.nanoseconds then inUnit 1000 3 "µs"
  else inUnit 1 0 "ns"

end Duration

/-- A point in time. -/
structure Time where
  /-- Nanoseconds since the epoch, negative before it. -/
  nanoseconds : Int
  deriving DecidableEq, Repr

namespace Time

/-- The epoch itself. -/
def epoch : Time := ⟨0⟩

instance : LE Time := ⟨fun a b => a.nanoseconds ≤ b.nanoseconds⟩

instance (a b : Time) : Decidable (a ≤ b) :=
  inferInstanceAs (Decidable (a.nanoseconds ≤ b.nanoseconds))

/-- The whole seconds since the epoch, rounded down. -/
def seconds (t : Time) : Int := t.nanoseconds.fdiv Duration.perSecond

/-- Whether the whole seconds fit in 64 signed bits. -/
def IsRepresentable (t : Time) : Prop :=
  Int64.minValue.toInt ≤ t.seconds ∧ t.seconds ≤ Int64.maxValue.toInt

instance (t : Time) : Decidable t.IsRepresentable := inferInstanceAs (Decidable (_ ∧ _))

/-- The point a span later, if it is representable. -/
def add? (t : Time) (d : Duration) : Option Time :=
  let later : Time := ⟨t.nanoseconds + d.nanoseconds⟩
  if later.IsRepresentable then some later else none

/-- The span from an earlier point, none at all when `earlier` is later. -/
def since (t earlier : Time) : Duration := ⟨(t.nanoseconds - earlier.nanoseconds).toNat⟩

/-- The whole seconds since the epoch, zero before it. -/
def epochSeconds (t : Time) : Nat := t.seconds.toNat

/-- The point a number of whole seconds after the epoch. -/
def ofEpochSeconds (n : Nat) : Time := ⟨n * Duration.perSecond⟩

end Time

end MultiDevice
