import MultiDevice.Messenger.Publish

/-!
# Rotating the signed pre-key

A new signed pre-key is published first and put in use only then. The one that it supersedes is kept
for a grace period. When publishing fails, the next attempt takes up the same new key.

## Main definitions

* `Messenger.rotate`, `Messenger.rotateIfDue`: rotation, and rotation of a key that is old enough
* `Messenger.prune`: drops the superseded keys whose time has come
-/

namespace MultiDevice.Messenger

/-- The signed pre-key that a rotation is to put in use: the one of an unfinished rotation if it is
still kept, else a new one. -/
def nextSignedPreKey : Action SignedPreKey := do
  let s ← get
  match s.messenger.pendingRotation.bind s.messenger.store.signedPreKeys.get? with
  | some key => return key
  | none => Action.changeStore fun store => store.createSignedPreKey s.now

/-- Puts a signed pre-key in use and answers the one that it supersedes. -/
def promote (id : UInt32) : Action (Option UInt32) :=
  Action.changeStore fun store => Draw.ofExcept (store.promoteSignedPreKey id)

/-- Schedules a superseded key to be dropped after the grace period. -/
def scheduleExpiry (id : UInt32) : Action Unit := do
  let s ← get
  match s.now.add? s.messenger.settings.gracePeriod with
  | none => throw .graceOutOfRange
  | some expiry =>
    Action.changeStore fun store =>
      return ((), ← Draw.ofExcept (store.expireSignedPreKey id expiry))

/-- Drops the superseded keys whose time has come, and answers their numbers. -/
def prune : Action (List UInt32) := do
  let s ← get
  Action.changeStore fun store => return store.purgeSignedPreKeys s.now

variable [CipherSuite]

/-- Publishes a new signed pre-key, puts it in use and answers its number. -/
def rotate : Action UInt32 := do
  let next ← nextSignedPreKey
  modify fun s => s.setPendingRotation (some next.id)
  publishWith next
  let previous ← promote next.id
  modify fun s => s.setPendingRotation none
  match previous with
  | some id => scheduleExpiry id
  | none => pure ()
  let _ ← prune
  return next.id

/-- Rotates if the signed pre-key in use is as old as the rotation interval. -/
def rotateIfDue : Action (Option UInt32) := do
  let s ← get
  let current ← Action.ofExcept s.messenger.store.signedPreKeys.current?
  let age := s.now.since current.createdAt
  if age.nanoseconds < s.messenger.settings.rotationInterval.nanoseconds then return none
  else return some (← rotate)

end MultiDevice.Messenger
