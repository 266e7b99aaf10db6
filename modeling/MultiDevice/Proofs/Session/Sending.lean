import MultiDevice.Proofs.KeyWrap.KeyUse
import MultiDevice.Proofs.Ratchet.Skipped
import MultiDevice.Proofs.Session.Record
import MultiDevice.Proofs.Session.Stored

/-!
# What a session sends

A session sends in epochs, one for each ratchet key that it takes up for sending. Within an epoch
the messages are numbered from zero, and each of them tells how many there were in the epoch before.
Messages that arrive open epochs, messages that cannot be read and storage leave them as they are,
and an epoch whose numbers are used up takes no more messages. So a ratchet key and a number are
never used together again, as long as no ratchet key is drawn again.

## Main definitions

* `Epoch.Consecutive`: epochs that know how long the ones before were
* `Epoch.messages`, `Epoch.written`: the messages of one epoch, and of several
* `sentOn`, `RatchetMessage.Differ`: the messages on one ratchet key, and messages that differ in
  their ratchet key or number
* `Wrote`: the epochs that a ratchet has written
* `Session.Call`, `Session.run`: calls on a session, with any messages
* `Session.sent`, `Session.sendingKeys`: what a run sends, and the ratchet keys it sends on

## Main results

* `Wrote.encrypt`, `Wrote.decrypt`: what sending and reading add to the epochs
* `KeyWrap.started_of_outbound`, `KeyWrap.started_of_inbound`: sessions of either side, at their
  start
* `Session.exists_wrote_after`, `Session.exists_wrote_run`: one call, and any number of them
* `Session.exists_encrypt_iff`: when a session can send
* `Session.sent_numbered`: no ratchet key and number are used together twice
-/

namespace MultiDevice

/-! ## Epochs one after the other -/

namespace Epoch

section Order

variable {e : Epoch} {past : List Epoch}

/-- Epochs, the latest first, each of which knows how many messages there were in the one before and
has no more than can be numbered. -/
def Consecutive : List Epoch → Prop
  | [] => True
  | e :: older =>
    e.size ≤ Chain.lastIndex.toNat ∧ e.previousLength.toNat = older.head?.elim 0 size ∧
      Consecutive older

theorem Consecutive.of_append {newer older : List Epoch} (h : Consecutive (newer ++ e :: older)) :
    e.size ≤ Chain.lastIndex.toNat ∧ e.previousLength.toNat = older.head?.elim 0 size := by
  induction newer with
  | nil => exact ⟨h.1, h.2.1⟩
  | cons e' newer ih => exact ih h.2.2

theorem Consecutive.size_le (h : Consecutive past) (he : e ∈ past) :
    e.size ≤ Chain.lastIndex.toNat := by
  obtain ⟨newer, older, rfl⟩ := List.append_of_mem he
  exact h.of_append.1

/-- The ratchet keys of the epochs are different points. -/
def Apart (past : List Epoch) : Prop := past.Pairwise fun e e' => ¬ e.key.SamePoint e'.key

theorem apart_of_keys {keys : List PublicKey} (hkeys : keys = (past.map Epoch.key).reverse)
    (h : keys.Pairwise fun k k' => ¬ k.SamePoint k') : Apart past := by
  rw [hkeys, List.pairwise_reverse, List.pairwise_map] at h
  exact h.imp fun hne hsame => hne hsame.symm

/-- The key that the chain of a ratchet key was started with. -/
def chainKeyOf (past : List Epoch) (key : PublicKey) : Block 32 :=
  (past.find? fun e => e.key = key).elim (Block.zero 32) chainKey

theorem chainKeyOf_key (h : Apart past) (he : e ∈ past) : chainKeyOf past e.key = e.chainKey := by
  have hfind : past.find? (fun e' => e'.key = e.key) = some e := by
    induction past with
    | nil => exact absurd he List.not_mem_nil
    | cons e' older ih =>
      obtain ⟨hnew, holder⟩ := List.pairwise_cons.mp h
      rcases List.mem_cons.mp he with rfl | he
      · exact List.find?_cons_of_pos (decide_eq_true rfl)
      · have hne : e'.key ≠ e.key := fun hkey => hnew e he (hkey ▸ PublicKey.SamePoint.refl _)
        rw [List.find?_cons_of_neg (by simpa using hne)]
        exact ih holder he
  rw [chainKeyOf, hfind]
  rfl

end Order

end Epoch

/-- The messages on one ratchet key. -/
def sentOn (key : PublicKey) (ms : List RatchetMessage) : List RatchetMessage :=
  ms.filter fun m => m.header.ratchetKey.SamePoint key

/-- Two messages are on different points, or have different numbers. -/
def RatchetMessage.Differ (m m' : RatchetMessage) : Prop :=
  ¬ (m.header.ratchetKey.SamePoint m'.header.ratchetKey ∧ m.header.number = m'.header.number)

section Sending

variable [CipherSuite]

namespace Epoch

variable {ad : Block 64} {e : Epoch} {past : List Epoch} {m : RatchetMessage}

/-- The messages of an epoch in order. -/
def messages (ad : Block 64) (e : Epoch) : List RatchetMessage :=
  e.plaintexts.mapIdx fun n p => e.message ad n p

/-- The messages of several epochs, given with the latest first. -/
def written (ad : Block 64) : List Epoch → List RatchetMessage
  | [] => []
  | e :: older => written ad older ++ e.messages ad

@[simp] theorem length_messages : (e.messages ad).length = e.size := List.length_mapIdx

theorem messages_add (p : Bytes) :
    (e.add p).messages ad = e.messages ad ++ [e.message ad e.size p] := List.mapIdx_concat

/-- A message of an epoch, by its number. -/
theorem mem_messages_iff :
    m ∈ e.messages ad ↔ ∃ n p, e.plaintexts[n]? = some p ∧ m = e.message ad n p := by
  rw [messages, List.mem_mapIdx]
  constructor
  · rintro ⟨n, hn, rfl⟩
    exact ⟨n, e.plaintexts[n], List.getElem?_eq_getElem hn, rfl⟩
  · rintro ⟨n, p, hp, rfl⟩
    obtain ⟨hn, rfl⟩ := List.getElem?_eq_some_iff.mp hp
    exact ⟨n, hn, rfl⟩

theorem mem_written_iff : m ∈ written ad past ↔ ∃ e ∈ past, m ∈ e.messages ad := by
  induction past with
  | nil => simp [written]
  | cons e older ih => simp [written, ih, or_comm]

/-- The messages of an epoch are numbered from zero without gaps. -/
theorem numbers_messages (h : e.size ≤ Chain.lastIndex.toNat) :
    (e.messages ad).map (fun m => m.header.number.toNat) = List.range e.size := by
  refine List.ext_getElem (by simp) fun n hn _ => ?_
  have hn : n < e.size := by simpa using hn
  simp only [messages, List.getElem_map, List.getElem_mapIdx, List.getElem_range]
  exact e.toNat_number_id (by omega)

theorem sentOn_messages (key : PublicKey) :
    sentOn key (e.messages ad) = if e.key.SamePoint key then e.messages ad else [] := by
  have hkey : ∀ m ∈ e.messages ad, m.header.ratchetKey = e.key := by
    intro m hm
    obtain ⟨n, p, -, rfl⟩ := mem_messages_iff.mp hm
    rfl
  split
  · next h =>
    refine List.filter_eq_self.mpr fun m hm => ?_
    rw [hkey m hm]
    exact decide_eq_true h
  · next h =>
    refine List.filter_eq_nil_iff.mpr fun m hm => ?_
    rw [hkey m hm]
    exact decide_eq_true_iff.not.mpr h

/-- On a ratchet key that none of several epochs has there are none of their messages. -/
theorem sentOn_written_of_not {key : PublicKey} (h : ∀ e ∈ past, ¬ e.key.SamePoint key) :
    sentOn key (written ad past) = [] := by
  induction past with
  | nil => rfl
  | cons e older ih =>
    obtain ⟨he, holder⟩ := List.forall_mem_cons.mp h
    rw [written, sentOn, List.filter_append, ← sentOn, ← sentOn, ih holder, sentOn_messages,
      if_neg he, List.nil_append]

/-- When the ratchet keys are different points, the messages on the one of an epoch are those of the
epoch. -/
theorem sentOn_written (h : Apart past) (he : e ∈ past) :
    sentOn e.key (written ad past) = e.messages ad := by
  induction past with
  | nil => exact absurd he List.not_mem_nil
  | cons e' older ih =>
    obtain ⟨hnew, holder⟩ := List.pairwise_cons.mp h
    rw [written, sentOn, List.filter_append, ← sentOn, ← sentOn, sentOn_messages]
    rcases List.mem_cons.mp he with rfl | he
    · rw [sentOn_written_of_not fun e' he' hsame => hnew e' he' hsame.symm,
        if_pos (PublicKey.SamePoint.refl _), List.nil_append]
    · rw [ih holder he, if_neg (hnew e he), List.append_nil]

theorem pairwise_messages (h : e.size ≤ Chain.lastIndex.toNat) :
    (e.messages ad).Pairwise RatchetMessage.Differ := by
  have hnumbers : ((e.messages ad).map fun m => m.header.number.toNat).Pairwise (· ≠ ·) := by
    rw [numbers_messages h]
    exact List.nodup_range
  refine (List.pairwise_map.mp hnumbers).imp fun hne hsame => hne ?_
  rw [hsame.2]

/-- When the ratchet keys are different points, no two messages share a ratchet key and a number. -/
theorem pairwise_written (h : Apart past) (hc : Consecutive past) :
    (written ad past).Pairwise RatchetMessage.Differ := by
  induction past with
  | nil => exact List.Pairwise.nil
  | cons e older ih =>
    obtain ⟨hnew, holder⟩ := List.pairwise_cons.mp h
    obtain ⟨hsize, -, hc⟩ := hc
    refine List.pairwise_append.mpr ⟨ih holder hc, pairwise_messages hsize, ?_⟩
    intro m hm m' hm' hsame
    obtain ⟨e', he', hm⟩ := mem_written_iff.mp hm
    obtain ⟨n, p, -, rfl⟩ := mem_messages_iff.mp hm
    obtain ⟨n', p', -, rfl⟩ := mem_messages_iff.mp hm'
    exact hnew e' he' hsame.1.symm

/-- When the ratchet keys are different points, the messages on each of them, given with the
earliest first, are numbered from zero without gaps and tell how many there were on the one
before. -/
theorem numbered_written (h : Apart past) (hc : Consecutive past)
    {earlier later : List PublicKey} {key : PublicKey}
    (hsplit : (past.map Epoch.key).reverse = earlier ++ key :: later) :
    (sentOn key (written ad past)).map (fun m => m.header.number.toNat) =
        List.range (sentOn key (written ad past)).length ∧
      ∀ m ∈ sentOn key (written ad past), m.header.previousLength.toNat =
        earlier.getLast?.elim 0 fun k => (sentOn k (written ad past)).length := by
  rw [List.reverse_eq_iff, List.reverse_append, List.reverse_cons, List.append_assoc,
    List.singleton_append] at hsplit
  obtain ⟨newer, rest, rfl, -, hrest⟩ := List.map_eq_append_iff.mp hsplit
  obtain ⟨e, older, rfl, rfl, holder⟩ := List.map_eq_cons_iff.mp hrest
  obtain ⟨hsize, hprevious⟩ := hc.of_append
  have he : e ∈ newer ++ e :: older := List.mem_append_right _ List.mem_cons_self
  rw [sentOn_written h he, length_messages]
  refine ⟨numbers_messages hsize, fun m hm => ?_⟩
  obtain ⟨n, p, -, rfl⟩ := mem_messages_iff.mp hm
  refine hprevious.trans ?_
  have hlast : earlier.getLast? = older.head?.map Epoch.key := by
    rw [← List.head?_reverse, ← holder, List.head?_map]
  rw [hlast]
  cases older with
  | nil => rfl
  | cons e' older =>
    have he' : e' ∈ newer ++ e :: e' :: older := by simp
    change e'.size = (sentOn e'.key (written _ _)).length
    rw [sentOn_written h he', length_messages]

/-- Every message is sealed under the key at its place on the chain of its ratchet key. -/
theorem sealed_written (h : Apart past) (hc : Consecutive past) (hm : m ∈ written ad past) :
    ∃ plaintext, m.ciphertext = Ratchet.encipher
      (Chain.messageKeyAt (chainKeyOf past m.header.ratchetKey) m.header.number.toNat)
      (Ratchet.vouched ad m.header) plaintext := by
  obtain ⟨e, he, hm⟩ := mem_written_iff.mp hm
  obtain ⟨n, p, hp, rfl⟩ := mem_messages_iff.mp hm
  have hn : (e.id n).number.toNat = n :=
    e.toNat_number_id (Nat.le_of_lt (Nat.lt_of_lt_of_le (lt_size hp) (hc.size_le he)))
  refine ⟨p, ?_⟩
  change _ = Ratchet.encipher
    (Chain.messageKeyAt (chainKeyOf past e.key) (e.id n).number.toNat) _ _
  rw [hn, chainKeyOf_key h he]
  rfl

end Epoch

/-! ## What a ratchet has written -/

/-- A ratchet has written epochs, given with the latest first. -/
structure Wrote (ad : Block 64) (past : List Epoch) (r : Ratchet) : Prop where
  associatedData : r.associatedData = ad
  consecutive : Epoch.Consecutive past
  writes : Writes { Flow.start with ahead := past.head? } r

/-- Reading a message leaves the sending side as it is, or draws a ratchet key and opens a chain for
it. -/
theorem Ratchet.decrypt_sending {r r' : Ratchet} {m : RatchetMessage} {p : Bytes} {e e' : Entropy}
    (h : r.decrypt m e = .ok (p, r') e') :
    r'.associatedData = r.associatedData ∧
      ((e' = e ∧ r'.secret = r.secret ∧ r'.sending = r.sending ∧
          r'.previousLength = r.previousLength) ∨
        (e' = e.next ∧ (∃ chainKey, r'.sending = some (Chain.ofKey chainKey)) ∧
          r'.previousLength = r.sending.elim 0 Chain.index)) := by
  cases hs : r.skipped[m.id]? with
  | some key =>
    rw [decrypt_of_skipped hs] at h
    obtain ⟨p', t, hd, h⟩ := bind_eq_ok_iff.mp h
    cases h
    exact ⟨rfl, .inl ⟨(Draw.ofExcept_eq_ok_iff.mp hd).2.symm, rfl, rfl, rfl⟩⟩
  | none =>
    cases hf : r.follows m.header.ratchetKey with
    | true =>
      rw [decrypt_of_follows hs hf] at h
      obtain ⟨hread, rfl⟩ := Draw.ofExcept_eq_ok_iff.mp h
      obtain ⟨r₁, -, -, -, hskip, -, -, rfl⟩ := exists_of_readOnChain hread
      obtain ⟨receiving, skipped, rfl⟩ := exists_of_skip hskip
      exact ⟨rfl, .inl ⟨rfl, rfl, rfl, rfl⟩⟩
    | false =>
      rw [decrypt_of_not_follows hs hf] at h
      obtain ⟨r₁, t, hskip, h⟩ := bind_eq_ok_iff.mp h
      obtain ⟨r₂, t', hturn, hread⟩ := bind_eq_ok_iff.mp h
      obtain ⟨hs₁, rfl⟩ := Draw.ofExcept_eq_ok_iff.mp hskip
      obtain ⟨hr₂, rfl⟩ := Draw.ofExcept_eq_ok_iff.mp hread
      -- the turn is the one place where anything of the sending side changes
      obtain ⟨receiving, skipped, rfl⟩ := exists_of_skip hs₁
      obtain ⟨r₃, -, -, -, hskip', -, -, rfl⟩ := exists_of_readOnChain hr₂
      obtain ⟨receiving', skipped', rfl⟩ := exists_of_skip hskip'
      obtain ⟨own, t, hdraw, hturn⟩ := bind_eq_ok_iff.mp hturn
      obtain ⟨-, rfl⟩ := Entropy.eq_of_block hdraw
      cases hturn
      exact ⟨rfl, .inr ⟨rfl, ⟨_, rfl⟩, rfl⟩⟩

namespace Wrote

variable {ad : Block 64} {past older : List Epoch} {e : Epoch} {r r' : Ratchet}

theorem of_started (h : r.Started) : ∃ past, Wrote r.associatedData past r ∧
    Epoch.written r.associatedData past = [] ∧
    past.map Epoch.key = if r.canSend then [r.publicKey] else [] := by
  cases h with
  | initiate h =>
    obtain ⟨own, t, -, h⟩ := bind_eq_ok_iff.mp h
    cases h
    exact ⟨[⟨own.publicKey, _, 0, []⟩], ⟨rfl, ⟨Nat.zero_le _, rfl, trivial⟩,
      Writes.opened Flow.start rfl rfl rfl rfl⟩, rfl, rfl⟩
  | respond => exact ⟨[], ⟨rfl, trivial, Writes.start rfl⟩, rfl, rfl⟩

/-- The latest epoch alone fits as a flow. -/
theorem fits (h : Wrote ad past r) : ({ Flow.start with ahead := past.head? } : Flow).Fits := by
  have hc := h.consecutive
  cases past with
  | nil => exact Flow.Fits.start
  | cons e older =>
    refine ⟨List.pairwise_singleton _ _, fun e' he' => ?_, fun _ _ hcurrent => (nomatch hcurrent)⟩
    obtain rfl := List.mem_singleton.mp he'
    exact hc.1

/-- The number of the next message is the length of the latest epoch. -/
theorem toNat_index (h : Wrote ad past r) :
    (r.sending.elim 0 Chain.index).toNat = past.head?.elim 0 Epoch.size := by
  have hc := h.consecutive
  cases past with
  | nil =>
    rw [h.writes.idle rfl]
    rfl
  | cons e older =>
    obtain ⟨chain, hs, hindex, -⟩ := h.writes.sending e rfl
    rw [hs]
    change chain.index.toNat = e.size
    rw [hindex]
    exact e.toNat_number_id hc.1

/-- A ratchet sends the next message of its latest epoch, unless there is none or it is full. -/
theorem encrypt (h : Wrote ad past r) (p : Bytes) :
    (∃ err sending, r.encrypt p = .error err { r with sending } ∧
        Wrote ad past { r with sending }) ∨
      ∃ e older sending, past = e :: older ∧ e.size < Chain.lastIndex.toNat ∧
        r.encrypt p = .ok (e.message ad e.size p) { r with sending } ∧
        Wrote ad (e.add p :: older) { r with sending } := by
  rcases h.writes.encrypt h.associatedData h.fits p with
    ⟨err, sending, he, hw⟩ | ⟨e, sending, hl, hroom, he, hw⟩
  · exact .inl ⟨err, sending, he, h.associatedData, h.consecutive, hw⟩
  · right
    cases past with
    | nil => cases hl
    | cons e' older =>
      cases hl
      obtain ⟨-, hprevious, hc⟩ := h.consecutive
      refine ⟨e, older, sending, rfl, hroom, he, h.associatedData, ⟨?_, hprevious, hc⟩, hw⟩
      rw [Epoch.size_add]
      exact hroom

/-- A ratchet can send as long as the numbers of its latest epoch last. -/
theorem exists_encrypt (h : Wrote ad past r) (he : past.head? = some e)
    (hroom : e.size < Chain.lastIndex.toNat) (p : Bytes) : ∃ m r', r.encrypt p = .ok m r' := by
  have hlatest : ({ Flow.start with ahead := past.head? } : Flow).latest = some e := by
    rw [Flow.latest, he]
    rfl
  obtain ⟨chain, hs, -, hchain⟩ := h.writes.sending e hlatest
  unfold Ratchet.encrypt
  rw [hs, hchain hroom]
  simp only [Chain.advance_after e.chainKey hroom]
  exact ⟨_, _, rfl⟩

/-- A ratchet that reads a message keeps its epochs, or opens one on a ratchet key that it draws. -/
theorem decrypt (h : Wrote ad past r) {m : RatchetMessage} {p : Bytes} {source source' : Entropy}
    (hd : r.decrypt m source = .ok (p, r') source') :
    (source' = source ∧ Wrote ad past r') ∨
      (source' = source.next ∧
        ∃ e, e.plaintexts = [] ∧ e.key = r'.publicKey ∧ Wrote ad (e :: past) r') := by
  obtain ⟨had, ⟨hsource, hsecret, hsending, hlength⟩ | ⟨hsource, ⟨chainKey, hsending⟩, hlength⟩⟩ :=
    Ratchet.decrypt_sending hd
  · have hkey : r'.publicKey = r.publicKey := congrArg Secret.publicKey hsecret
    refine .inl ⟨hsource, had.trans h.associatedData, h.consecutive, ?_⟩
    have hw := h.writes
    refine ⟨?_, ?_, ?_, ?_⟩
    · rw [hsending]
      exact hw.idle
    · rw [hkey]
      exact hw.key
    · rw [hlength]
      exact hw.previousLength
    · rw [hsending]
      exact hw.sending
  · refine .inr ⟨hsource, ⟨r'.publicKey, chainKey, r'.previousLength, []⟩, rfl, rfl,
      had.trans h.associatedData, ⟨Nat.zero_le _, ?_, h.consecutive⟩,
      Writes.opened Flow.start rfl rfl rfl hsending⟩
    rw [hlength]
    exact h.toNat_index

end Wrote

/-! ## Runs of a session -/

/-- The session that is started from a bundle is at its start. -/
theorem KeyWrap.started_of_outbound {c : Settings} {s : Store} {bundle : PreKeyBundle}
    {session : Session} {e e' : Entropy} (h : outbound c s bundle e = .ok session e') :
    session.ratchet.Started := by
  obtain ⟨secret, ad, e₁, hinitiate, -⟩ := exists_of_outbound h
  exact .initiate hinitiate

/-- The session that is built for a header is at its start. -/
theorem KeyWrap.started_of_inbound {c : Settings} {s : Store} {header : PreKeyHeader}
    {session : Session} (h : inbound c s header = .ok session) : session.ratchet.Started := by
  obtain ⟨own, ad, hrespond⟩ := exists_of_inbound h
  rw [hrespond]
  exact .respond _ _ _ _

namespace Session

/-- A call on a session. A message that is handed to it can be any, and each call has its own source
of randomness. -/
inductive Call where
  /-- A plaintext is encrypted. -/
  | encrypt (plaintext : Bytes)
  /-- A message is handed over for decryption. -/
  | decrypt (m : RatchetMessage) (source : Entropy)
  /-- The session is written down and read again. -/
  | reload

/-- The session after a call, whether the call succeeds or fails. -/
def after (s : Session) : Call → Session
  | .encrypt plaintext => endState (Session.encrypt plaintext) s
  | .decrypt m source =>
    match s.decrypt m source with
    | .ok (_, s') _ => s'
    | .error _ _ => s
  | .reload =>
    match deserialize s.serialize with
    | .ok s' => s'
    | .error _ => s

/-- The session after several calls. -/
def run (s : Session) (calls : List Call) : Session := calls.foldl after s

/-- The message that a call returns. -/
def returned? (s : Session) : Call → Option RatchetMessage
  | .encrypt plaintext => answer? (Session.encrypt plaintext) s
  | _ => none

/-- The messages that several calls return, in order. -/
def sent (s : Session) : List Call → List RatchetMessage
  | [] => []
  | call :: calls => (s.returned? call).toList ++ (s.after call).sent calls

/-- The ratchet key that a call draws, if it reads a message on a new ratchet key of the peer. -/
def drawn? (s : Session) : Call → Option PublicKey
  | .decrypt m source =>
    match s.decrypt m source with
    | .ok (_, s') source' =>
      if source.drawn < source'.drawn then some s'.ratchet.publicKey else none
    | .error _ _ => none
  | _ => none

/-- The ratchet keys that several calls draw, in order. -/
def drawnKeys (s : Session) : List Call → List PublicKey
  | [] => []
  | call :: calls => (s.drawn? call).toList ++ (s.after call).drawnKeys calls

/-- The ratchet keys that a run can send on, in order: the one that the session starts with, if it
can send at once, and those that it draws. -/
def sendingKeys (s : Session) (calls : List Call) : List PublicKey :=
  (if s.ratchet.canSend then [s.ratchet.publicKey] else []) ++ s.drawnKeys calls

@[simp] theorem run_nil (s : Session) : s.run [] = s := rfl

@[simp] theorem run_cons (s : Session) (call : Call) (calls : List Call) :
    s.run (call :: calls) = (s.after call).run calls := rfl

@[simp] theorem after_reload (s : Session) : s.after .reload = s := by
  have hread : deserialize s.serialize = .ok s := s.stored_holds.deserialize
  unfold after
  rw [hread]

variable {ad : Block 64} {past : List Epoch} {s : Session}

/-- One call adds the message that it returns to the latest epoch, and opens an epoch on the ratchet
key that it draws. -/
theorem exists_wrote_after (h : Wrote ad past s.ratchet) (call : Call) :
    ∃ past', Wrote ad past' (s.after call).ratchet ∧
      Epoch.written ad past' = Epoch.written ad past ++ (s.returned? call).toList ∧
      past'.map Epoch.key = (s.drawn? call).toList ++ past.map Epoch.key := by
  cases call with
  | encrypt plaintext =>
    rcases h.encrypt plaintext with ⟨err, sending, he, h'⟩ | ⟨e, older, sending, rfl, -, he, h'⟩
    · have hcall : s.encrypt plaintext =
          .error err { s with ratchet := { s.ratchet with sending } } := by
        simp only [Session.encrypt, he]
      refine ⟨past, ?_, ?_, rfl⟩
      · rw [after, endState_of_error hcall]
        exact h'
      · rw [returned?, answer?_of_error hcall]
        simp
    · have hcall := encrypt_eq_ok_iff.mpr ⟨_, he, rfl⟩
      refine ⟨e.add plaintext :: older, ?_, ?_, rfl⟩
      · rw [after, endState_of_ok hcall]
        exact h'
      · rw [returned?, answer?_of_ok hcall]
        simp [Epoch.written, Epoch.messages_add]
  | decrypt m source =>
    cases hd : s.decrypt m source with
    | error err source' =>
      refine ⟨past, ?_, by simp [returned?], by simp [drawn?, hd]⟩
      simp only [after, hd]
      exact h
    | ok answer source' =>
      obtain ⟨p, s'⟩ := answer
      obtain ⟨ratchet, hratchet, rfl⟩ := decrypt_eq_ok_iff.mp hd
      rcases h.decrypt hratchet with ⟨rfl, h'⟩ | ⟨rfl, e, hnone, hkey, h'⟩
      · refine ⟨past, ?_, by simp [returned?], by simp [drawn?, hd]⟩
        simp only [after, hd]
        exact h'
      · refine ⟨e :: past, ?_, ?_, ?_⟩
        · simp only [after, hd]
          exact h'
        · simp [returned?, Epoch.written, Epoch.messages, hnone]
        · simp [drawn?, hd, Entropy.next, hkey]
  | reload =>
    rw [after_reload]
    exact ⟨past, h, by simp [returned?], rfl⟩

/-- Whatever a run does, what it sends are the messages of epochs on its sending keys. -/
theorem exists_wrote_run (h : Wrote ad past s.ratchet) (calls : List Call) :
    ∃ past', Wrote ad past' (s.run calls).ratchet ∧
      Epoch.written ad past' = Epoch.written ad past ++ s.sent calls ∧
      past'.map Epoch.key = (s.drawnKeys calls).reverse ++ past.map Epoch.key := by
  induction calls generalizing s past with
  | nil => exact ⟨past, h, by simp [sent], rfl⟩
  | cons call calls ih =>
    obtain ⟨past₁, h₁, hwritten₁, hkeys₁⟩ := exists_wrote_after h call
    obtain ⟨past₂, h₂, hwritten₂, hkeys₂⟩ := ih h₁
    refine ⟨past₂, h₂, ?_, ?_⟩
    · rw [hwritten₂, hwritten₁, sent, List.append_assoc]
    · have hone : (s.drawn? call).toList.reverse = (s.drawn? call).toList := by
        cases s.drawn? call <;> rfl
      rw [hkeys₂, hkeys₁, drawnKeys, List.reverse_append, List.append_assoc, hone]

/-- The epochs that a run of a session writes from its start. -/
theorem exists_wrote (h : s.ratchet.Started) (calls : List Call) :
    ∃ past, Wrote s.ratchet.associatedData past (s.run calls).ratchet ∧
      s.sent calls = Epoch.written s.ratchet.associatedData past ∧
      s.sendingKeys calls = (past.map Epoch.key).reverse := by
  obtain ⟨past, h, hwritten, hkeys⟩ := Wrote.of_started h
  obtain ⟨past', h', hwritten', hkeys'⟩ := exists_wrote_run h calls
  refine ⟨past', h', ?_, ?_⟩
  · rw [hwritten', hwritten, List.nil_append]
  · rw [hkeys', hkeys, List.reverse_append, List.reverse_reverse, sendingKeys]
    split <;> rfl

/-- A session can send exactly as long as the numbers of its latest sending key last. -/
theorem exists_encrypt_iff (h : s.ratchet.Started) (calls : List Call)
    (hnew : (s.sendingKeys calls).Pairwise fun k k' => ¬ k.SamePoint k') (plaintext : Bytes) :
    (∃ m s', (s.run calls).encrypt plaintext = .ok m s') ↔
      ∃ key, (s.sendingKeys calls).getLast? = some key ∧
        (sentOn key (s.sent calls)).length < Chain.lastIndex.toNat := by
  obtain ⟨past, hw, hsent, hkeys⟩ := exists_wrote h calls
  have hapart := Epoch.apart_of_keys hkeys hnew
  rw [hsent, hkeys, List.getLast?_reverse, List.head?_map]
  constructor
  · rintro ⟨m, s', hs⟩
    obtain ⟨ratchet, he, -⟩ := encrypt_eq_ok_iff.mp hs
    rcases hw.encrypt plaintext with ⟨err, sending, he', -⟩ | ⟨e, older, sending, rfl, hroom, -⟩
    · cases he.symm.trans he'
    · refine ⟨e.key, rfl, ?_⟩
      rw [Epoch.sentOn_written hapart List.mem_cons_self, Epoch.length_messages]
      exact hroom
  · rintro ⟨key, hkey, hroom⟩
    obtain ⟨e, he, rfl⟩ := Option.map_eq_some_iff.mp hkey
    rw [Epoch.sentOn_written hapart (List.mem_of_head? he), Epoch.length_messages] at hroom
    obtain ⟨m, ratchet, hm⟩ := hw.exists_encrypt he hroom plaintext
    exact ⟨m, _, encrypt_eq_ok_iff.mpr ⟨ratchet, hm, rfl⟩⟩

/-- **No message key seals twice.** Whatever is encrypted, whatever messages are read or refused,
and however often the session is written down and read again: as long as the ratchet keys that are
drawn are different points, no two messages share a ratchet key and a number. On each ratchet key
the messages are numbered from zero without gaps, each tells how many were sent on the ratchet key
before, and each is sealed under the key at its place on the chain of its ratchet key. -/
theorem sent_numbered (h : s.ratchet.Started) (calls : List Call)
    (hnew : (s.sendingKeys calls).Pairwise fun k k' => ¬ k.SamePoint k') :
    (s.sent calls).Pairwise RatchetMessage.Differ ∧
      (∀ m ∈ s.sent calls, m.header.ratchetKey ∈ s.sendingKeys calls) ∧
      (∀ earlier key later, s.sendingKeys calls = earlier ++ key :: later →
        (sentOn key (s.sent calls)).map (fun m => m.header.number.toNat) =
            List.range (sentOn key (s.sent calls)).length ∧
          ∀ m ∈ sentOn key (s.sent calls), m.header.previousLength.toNat =
            earlier.getLast?.elim 0 fun k => (sentOn k (s.sent calls)).length) ∧
      ∃ chainKey : PublicKey → Block 32, ∀ m ∈ s.sent calls, ∃ plaintext,
        m.ciphertext = Ratchet.encipher
          (Chain.messageKeyAt (chainKey m.header.ratchetKey) m.header.number.toNat)
          (Ratchet.vouched s.ratchet.associatedData m.header) plaintext := by
  obtain ⟨past, hw, hsent, hkeys⟩ := exists_wrote h calls
  have hapart := Epoch.apart_of_keys hkeys hnew
  rw [hsent]
  refine ⟨Epoch.pairwise_written hapart hw.consecutive, fun m hm => ?_,
    fun earlier key later hsplit => ?_, ?_⟩
  · obtain ⟨e, he, hm⟩ := Epoch.mem_written_iff.mp hm
    obtain ⟨n, p, -, rfl⟩ := Epoch.mem_messages_iff.mp hm
    rw [hkeys, List.mem_reverse]
    exact List.mem_map_of_mem he
  · rw [hkeys] at hsplit
    exact Epoch.numbered_written hapart hw.consecutive hsplit
  · exact ⟨Epoch.chainKeyOf past, fun m hm =>
      Epoch.sealed_written hapart hw.consecutive hm⟩

end Session

end Sending

section Answered

attribute [local instance] CipherSuite.transparent

namespace Session

open Conversation (fresh)

/-- The session of the party that answers. -/
def answerer : Session :=
  { ratchet := fresh.ratchet .second, remoteIdentity := ⟨Block.zero 32⟩
    baseKey := ⟨Block.zero 32⟩, pending := none }

/-- The other party has sent a message. -/
def opened : Conversation := fresh.run [.send .first [1]]

/-- The message was answered twice, and the other party has sent a message on a new ratchet key. -/
def turned : Conversation :=
  let answered := opened.run (((opened.sent .first).map fun x => .deliver .second x.2) ++
    [.send .second [2], .send .second [3]])
  answered.run (((answered.sent .second).map fun x => .deliver .first x.2) ++ [.send .first [4]])

/-- What the party that answers does, with a reload and a message that it has read before. -/
def answers : List Call :=
  match turned.sent .first with
  | [(_, second), (_, first)] =>
    [.decrypt first opened.entropy, .encrypt [2], .reload, .decrypt first opened.entropy,
      .encrypt [3], .decrypt second turned.entropy, .encrypt [5]]
  | _ => []

/-- Two messages on one ratchet key and one on the next, which counts the two. -/
theorem sent_numbered_of_answers :
    answerer.ratchet.Started ∧
      (answerer.sent answers).map (fun m => (m.header.number, m.header.previousLength)) =
        [(0, 0), (1, 0), (0, 2)] ∧
      (answerer.sent answers).Pairwise RatchetMessage.Differ := by
  have hstart : answerer.ratchet.Started := .respond _ _ _ _
  refine ⟨hstart, by decide +kernel, ?_⟩
  exact (sent_numbered hstart answers (by decide +kernel)).1

end Session

end Answered

end MultiDevice
