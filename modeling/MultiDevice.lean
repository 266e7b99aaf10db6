import MultiDevice.Address
import MultiDevice.Agreement
import MultiDevice.Bundle
import MultiDevice.Bytes.Block
import MultiDevice.Bytes.Endian
import MultiDevice.Bytes.Text
import MultiDevice.CipherSuite
import MultiDevice.Directory.Basic
import MultiDevice.Directory.Resolve
import MultiDevice.Entropy
import MultiDevice.Envelope.Basic
import MultiDevice.Envelope.ContentKey
import MultiDevice.Error
import MultiDevice.Key.Identity
import MultiDevice.Key.OneTime
import MultiDevice.Key.Public
import MultiDevice.Key.Signed
import MultiDevice.KeyWrap
import MultiDevice.Messenger.Basic
import MultiDevice.Messenger.Decrypt
import MultiDevice.Messenger.Encrypt
import MultiDevice.Messenger.Publish
import MultiDevice.Messenger.Rotation
import MultiDevice.Primitive.Aes
import MultiDevice.Primitive.Curve25519
import MultiDevice.Primitive.Ed25519
import MultiDevice.Primitive.GcmSiv
import MultiDevice.Primitive.Hkdf
import MultiDevice.Primitive.Sha2
import MultiDevice.Ratchet.Basic
import MultiDevice.Ratchet.Chain
import MultiDevice.Ratchet.Message
import MultiDevice.Session.Basic
import MultiDevice.Session.Record
import MultiDevice.Session.Stored
import MultiDevice.Store
import MultiDevice.Time
import MultiDevice.Trust
import MultiDevice.Wire.Field
import MultiDevice.Wire.Varint
import MultiDevice.Proofs.Action
import MultiDevice.Proofs.Agreement
import MultiDevice.Proofs.AssociatedData
import MultiDevice.Proofs.Bytes.Block
import MultiDevice.Proofs.Bytes.Text
import MultiDevice.Proofs.CipherSuite
import MultiDevice.Proofs.Directory
import MultiDevice.Proofs.Draw
import MultiDevice.Proofs.Entries
import MultiDevice.Proofs.Erasure
import MultiDevice.Proofs.Exchange.Basic
import MultiDevice.Proofs.Exchange.Deliver
import MultiDevice.Proofs.Exchange.Encrypt
import MultiDevice.Proofs.Exchange.Reliability
import MultiDevice.Proofs.Exchange.Sound
import MultiDevice.Proofs.Exchange.Thread
import MultiDevice.Proofs.InPlace
import MultiDevice.Proofs.Key.Calls
import MultiDevice.Proofs.Key.Issued
import MultiDevice.Proofs.Key.Numbering
import MultiDevice.Proofs.Key.Pool
import MultiDevice.Proofs.Key.PreKeys
import MultiDevice.Proofs.Key.Retention
import MultiDevice.Proofs.Key.Ring
import MultiDevice.Proofs.Key.Succession
import MultiDevice.Proofs.KeyWrap.Atomic
import MultiDevice.Proofs.KeyWrap.Consumption
import MultiDevice.Proofs.KeyWrap.KeyUse
import MultiDevice.Proofs.KeyWrap.Outcome
import MultiDevice.Proofs.KeyWrap.Records
import MultiDevice.Proofs.KeyWrap.SessionName
import MultiDevice.Proofs.KeyWrap.Starts
import MultiDevice.Proofs.Messenger.Accounting
import MultiDevice.Proofs.Messenger.Answerable
import MultiDevice.Proofs.Messenger.Authorship
import MultiDevice.Proofs.Messenger.Chores
import MultiDevice.Proofs.Messenger.Circle
import MultiDevice.Proofs.Messenger.Counting
import MultiDevice.Proofs.Messenger.Dueness
import MultiDevice.Proofs.Messenger.FailedRotation
import MultiDevice.Proofs.Messenger.Failure
import MultiDevice.Proofs.Messenger.HandOut
import MultiDevice.Proofs.Messenger.History
import MultiDevice.Proofs.Messenger.Listing
import MultiDevice.Proofs.Messenger.Network
import MultiDevice.Proofs.Messenger.Outcome
import MultiDevice.Proofs.Messenger.OwnEntries
import MultiDevice.Proofs.Messenger.Privy
import MultiDevice.Proofs.Messenger.Publication
import MultiDevice.Proofs.Messenger.Randomness
import MultiDevice.Proofs.Messenger.Replay
import MultiDevice.Proofs.Messenger.Request
import MultiDevice.Proofs.Messenger.Retention
import MultiDevice.Proofs.Messenger.Retry
import MultiDevice.Proofs.Messenger.Rotation
import MultiDevice.Proofs.Messenger.Sealing
import MultiDevice.Proofs.Messenger.Sessions
import MultiDevice.Proofs.Messenger.Storage
import MultiDevice.Proofs.Messenger.Tended
import MultiDevice.Proofs.Messenger.Traffic
import MultiDevice.Proofs.Messenger.Upkeep
import MultiDevice.Proofs.Messenger.Vouching
import MultiDevice.Proofs.Ratchet.Chain
import MultiDevice.Proofs.Ratchet.Conversation
import MultiDevice.Proofs.Ratchet.Flow
import MultiDevice.Proofs.Ratchet.KeyUse
import MultiDevice.Proofs.Ratchet.Ladder
import MultiDevice.Proofs.Ratchet.Message
import MultiDevice.Proofs.Ratchet.Overtaken
import MultiDevice.Proofs.Ratchet.Reader
import MultiDevice.Proofs.Ratchet.Several
import MultiDevice.Proofs.Ratchet.Skipped
import MultiDevice.Proofs.Ratchet.Tampering
import MultiDevice.Proofs.Resolve
import MultiDevice.Proofs.Session.Order
import MultiDevice.Proofs.Session.Record
import MultiDevice.Proofs.Session.Regular
import MultiDevice.Proofs.Session.Sending
import MultiDevice.Proofs.Session.Size
import MultiDevice.Proofs.Session.Stored
import MultiDevice.Proofs.Session.Untouched
import MultiDevice.Proofs.Store.Afresh
import MultiDevice.Proofs.Trust.Fingerprint
import MultiDevice.Proofs.Trust.History
import MultiDevice.Proofs.Trust.Leniency
import MultiDevice.Proofs.Trust.Pinned
import MultiDevice.Proofs.Trust.Record
import MultiDevice.Proofs.Wire.Field
import MultiDevice.Proofs.Messenger.Circle
import MultiDevice.Proofs.Messenger.Privy
