import MultiDevice.Key.Public
import Std.Data.ExtTreeMap

/-!
# Trust decisions

For every remote device the user decides whether to trust it. A decision is held for the identity
key that the device showed; another key takes the device back to undecided.

## Main definitions

* `TrustState`, `TrustRecord`, `TrustTable`: decisions, the keys they are held for, and all of them
* `TrustTable.decide`, `TrustTable.observe`: what the user decides, and what a device shows
* `TrustTable.require`: which devices a message may go to
-/

namespace MultiDevice

/-- A trust decision. -/
inductive TrustState where
  /-- The user trusts the device. -/
  | trusted
  /-- The user does not trust the device. -/
  | untrusted
  /-- The user has not decided. -/
  | undecided
  deriving DecidableEq, Repr

/-- The written form of a decision. -/
def TrustState.text : TrustState → String
  | trusted => "trusted"
  | untrusted => "untrusted"
  | undecided => "undecided"

/-- A decision and the identity key that it is held for, once the device showed one. -/
structure TrustRecord where
  /-- The decision. -/
  state : TrustState
  /-- The identity key. -/
  identity : Option PublicKey
  deriving DecidableEq, Repr

/-- The record of a device that nothing is known about. -/
def TrustRecord.unknown : TrustRecord := { state := .undecided, identity := none }

/-- The records of all devices that something is known about. -/
abbrev TrustTable : Type := Std.ExtTreeMap DeviceAddress TrustRecord

/-- The devices that a message may go to, and those it must not go to. -/
structure TrustVerdict where
  /-- Trusted devices, and undecided ones that were allowed. -/
  accepted : DeviceSet
  /-- Untrusted devices. -/
  untrusted : DeviceSet

namespace TrustTable

/-- The record of a device. -/
def record (t : TrustTable) (device : DeviceAddress) : TrustRecord :=
  (t[device]?).getD .unknown

/-- The decision on a device. -/
def check (t : TrustTable) (device : DeviceAddress) : TrustState := (record t device).state

/-- Changes the record of a device. -/
def update (t : TrustTable) (device : DeviceAddress) (change : TrustRecord → TrustRecord) :
    TrustTable :=
  t.insert device (change (record t device))

/-- Records a decision. -/
def decide (t : TrustTable) (device : DeviceAddress) (state : TrustState) : TrustTable :=
  update t device fun r => { r with state }

/-- Records the identity key that a device shows. The first key is kept with the decision; a key of
another point starts a new record, undecided, and is reported. -/
def observe (device : DeviceAddress) (identity : PublicKey) :
    EStateM Error TrustTable Unit := fun t =>
  match (record t device).identity with
  | none => .ok () (update t device fun r => { r with identity := some identity })
  | some known =>
    if known.SamePoint identity then .ok () t
    else
      .error (.identityChanged device)
        (t.insert device { state := .undecided, identity := some identity })

/-- The devices of a set on which a decision stands. -/
def inState (t : TrustTable) (state : TrustState) (devices : DeviceSet) : DeviceSet :=
  devices.filter fun d => check t d = state

/-- Sorts devices into those that a message may go to and the untrusted ones, unless some are
undecided and not allowed. -/
def require (t : TrustTable) (devices allowed : DeviceSet) : Except Error TrustVerdict :=
  let undecided := inState t .undecided devices
  let rejected := undecided.filter fun d => d ∉ allowed
  if rejected.isEmpty then
    .ok {
      accepted := devices.filter fun d => check t d ≠ .untrusted
      untrusted := inState t .untrusted devices }
  else .error (.undecidedTrust rejected)

/-- The fingerprint of the identity key that a device showed. -/
def fingerprint? (t : TrustTable) (device : DeviceAddress) : Option String :=
  (record t device).identity.map PublicKey.fingerprint

end TrustTable

end MultiDevice
