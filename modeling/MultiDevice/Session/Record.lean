import MultiDevice.Session.Basic

/-!
# Session records

Two devices that write to each other at the same time end up with two sessions. A record keeps all
sessions with one device: the current one, which encrypts, and superseded ones, on which messages
may still arrive. Whichever session reads a message becomes current.

## Main definitions

* `SessionRecord`: the sessions with one device
* `SessionRecord.promote`: makes a session current
* `SessionRecord.decrypt`: reads a message with the first session that accepts it
-/

namespace MultiDevice

/-- The sessions with one device. -/
structure SessionRecord where
  /-- The session that encrypts. -/
  current : Session
  /-- Superseded sessions, the latest first. -/
  previous : List Session
  deriving DecidableEq

namespace SessionRecord

/-- How many superseded sessions are kept. -/
def archiveLimit : Nat := 40

/-- A record of one session. -/
def ofSession (s : Session) : SessionRecord := { current := s, previous := [] }

/-- All sessions, the current one first. -/
def sessions (r : SessionRecord) : List Session := r.current :: r.previous

/-- Makes a session current and files the one it supersedes; the oldest beyond the limit go. -/
def promote (r : SessionRecord) (s : Session) : SessionRecord :=
  { current := s, previous := (r.current :: r.previous).take archiveLimit }

/-- Whether a session was agreed with an ephemeral key, any key when none is given. -/
def agreedWith (baseKey : Option PublicKey) (s : Session) : Bool :=
  match baseKey with
  | none => true
  | some key => decide (s.baseKey.SamePoint key)

/-- Whether some session was agreed with an ephemeral key. -/
def hasBaseKey (r : SessionRecord) (key : PublicKey) : Bool :=
  r.sessions.any (agreedWith (some key))

variable [CipherSuite]

/-- A message read by one of several sessions. -/
structure Reading where
  /-- The plaintext. -/
  plaintext : Bytes
  /-- The session that read the message, after it. -/
  session : Session
  /-- The other sessions, in their order. -/
  others : List Session

/-- A reading among one session more, which did not read the message. -/
def Reading.past (s : Session) (r : Reading) : Reading := { r with others := s :: r.others }

/-- Reads a message with the first session that accepts it among those agreed with `baseKey`. When
none does, the last failure counts, or `failure` if no session was tried. -/
def readFirst (message : RatchetMessage) (baseKey : Option PublicKey) :
    Error → List Session → Draw Reading
  | failure, [] => throw failure
  | failure, s :: rest => fun e =>
    if agreedWith baseKey s then
      match s.decrypt message e with
      | .ok (plaintext, session) e => .ok { plaintext, session, others := rest } e
      | .error err e => (Reading.past s <$> readFirst message baseKey err rest) e
    else (Reading.past s <$> readFirst message baseKey failure rest) e

/-- Reads a message with a superseded session and makes that session current. -/
def decryptArchived (r : SessionRecord) (message : RatchetMessage) (baseKey : Option PublicKey)
    (failure : Error) : Draw (Bytes × PublicKey × SessionRecord) := do
  let reading ← readFirst message baseKey failure r.previous
  return (reading.plaintext, reading.session.remoteIdentity,
    { r with previous := reading.others }.promote reading.session)

/-- Reads a message with the first session that accepts it, the current one before the superseded
ones. The answer is the plaintext, the identity of that session, and the record with it current. -/
def decrypt (r : SessionRecord) (message : RatchetMessage) (baseKey : Option PublicKey) :
    Draw (Bytes × PublicKey × SessionRecord) := fun e =>
  if agreedWith baseKey r.current then
    match r.current.decrypt message e with
    | .ok (plaintext, session) e =>
      .ok (plaintext, session.remoteIdentity, { r with current := session }) e
    | .error err e => r.decryptArchived message baseKey err e
  else r.decryptArchived message baseKey .noMatchingState e

end SessionRecord

end MultiDevice
