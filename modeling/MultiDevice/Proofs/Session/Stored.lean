import Mathlib.Data.List.Forall2
import MultiDevice.Proofs.Wire.Field
import MultiDevice.Session.Stored

/-!
# Records survive storage

A record is read again as it was written unless one of its sessions takes more bytes than 64 bits
can count. Then it is not read at all. The message keys that a session put aside may be written in
any order.

## Main definitions

* `StoredSession.Holds`, `StoredRecord.Holds`: the messages that a session and a record may be
  written as

## Main results

* `SessionRecord.deserialize_serialize`: a record of fewer than `2 ^ 64` bytes is read again
* `SessionRecord.eq_of_deserialize_serialize`: whatever was stored, no other record is read
* `survives_storage`: sessions are always read again, and records if their sessions are short
-/

namespace MultiDevice

open Wire

/-! ## From messages to records -/

theorem storedBlock_toList (part : String) {n : Nat} (b : Block n) :
    storedBlock part n b.toList = .ok b := by
  rw [storedBlock, Block.ofList?_toList]

theorem storedKey_toList (part : String) (k : PublicKey) :
    storedKey part k.bytes.toList = .ok k := by
  rw [storedKey, storedBlock_toList]
  rfl

theorem storedOption_map {α β : Type} {f : α → Except Error β} {g : β → α}
    (h : ∀ b, f (g b) = .ok b) (o : Option β) : storedOption f (o.map g) = .ok o := by
  cases o with
  | none => rfl
  | some b =>
    change (f (g b)).map some = _
    rw [h]
    rfl

theorem StoredChain.chain_stored (c : Chain) : c.stored.chain = .ok c := by
  change (storedBlock "chain key" 32 c.key.toList >>= fun _ => _) = _
  rw [storedBlock_toList]
  rfl

theorem StoredHeader.header_stored (h : PreKeyHeader) : h.stored.header = .ok h := by
  change (storedKey _ h.identity.bytes.toList >>= fun _ =>
    storedKey _ h.baseKey.bytes.toList >>= fun _ => _) = _
  rw [storedKey_toList, storedKey_toList]
  rfl

/-- A message key and its name as a message. -/
def storedPair (p : SkippedId × Block 32) : StoredSkippedKey :=
  { ratchetKey := p.1.ratchetKey.toList, number := p.1.number, messageKey := p.2.toList }

theorem StoredSkippedKey.collect_map (ps : List (SkippedId × Block 32)) (keys : SkippedKeys) :
    collect (ps.map storedPair) keys = .ok (keys.insertMany ps) := by
  induction ps generalizing keys with
  | nil => rfl
  | cons p ps ih =>
    obtain ⟨⟨ratchetKey, number⟩, key⟩ := p
    change (storedBlock _ 32 ratchetKey.toList >>= fun _ => storedBlock _ 32 key.toList >>=
      fun _ => _) = _
    rw [storedBlock_toList, storedBlock_toList]
    change collect (ps.map storedPair) (keys.insert ⟨ratchetKey, number⟩ key) = _
    rw [ih, Std.ExtTreeMap.insertMany_cons]

/-- The messages are those of the keys, in some order. -/
theorem SkippedKeys.exists_stored_eq_map (ks : SkippedKeys) :
    ∃ ps : List (SkippedId × Block 32),
      SkippedKeys.stored ks = ps.map storedPair ∧ ps.Perm ks.toList := by
  refine ⟨ks.toList.mergeSort fun p p' =>
    (compare (writeField (message 9 (storedPair p).fields))
      (writeField (message 9 (storedPair p').fields))).isLE, ?_, List.mergeSort_perm _ _⟩
  exact (List.map_mergeSort (f := storedPair) fun _ _ _ _ => rfl).symm

/-- The keys are collected from their messages, whatever the order of these. -/
theorem StoredSkippedKey.collect_of_perm {ps : List (SkippedId × Block 32)} {ks : SkippedKeys}
    (hp : ps.Perm ks.toList) : collect (ps.map storedPair) ∅ = .ok ks := by
  rw [collect_map]
  congr 1
  apply Std.ExtTreeMap.ext_getElem?
  intro id
  -- no two keys have one name, so the order in which they are written does not matter
  have hd : ps.Pairwise fun a b => ¬ compare a.1 b.1 = .eq :=
    (hp.pairwise_iff fun h h' => h (Std.OrientedCmp.eq_symm h')).mpr
      Std.ExtTreeMap.distinct_keys_toList
  cases hk : ks[id]? with
  | some key =>
    have hm : (id, key) ∈ ps :=
      hp.mem_iff.mpr (Std.ExtTreeMap.mem_toList_iff_getElem?_eq_some.mpr hk)
    exact Std.ExtTreeMap.getElem?_insertMany_list_of_mem Std.ReflCmp.compare_self hd hm
  | none =>
    rw [Std.ExtTreeMap.getElem?_insertMany_list_of_contains_eq_false]
    · rfl
    · rw [List.contains_eq_mem, decide_eq_false_iff_not]
      intro hm
      obtain ⟨⟨id', key⟩, hmem, rfl⟩ := List.mem_map.mp hm
      have hs := Std.ExtTreeMap.mem_toList_iff_getElem?_eq_some.mp (hp.mem_iff.mp hmem)
      rw [hk] at hs
      cases hs

/-- A message of a session: its own, but that the message keys put aside are in any order. -/
def StoredSession.Holds (m : StoredSession) (s : Session) : Prop :=
  ∃ ps : List (SkippedId × Block 32), ps.Perm s.ratchet.skipped.toList ∧
    m = { s.stored with skipped := ps.map storedPair }

/-- A message of a record: a message of each of its sessions, in their order. -/
structure StoredRecord.Holds (m : StoredRecord) (r : SessionRecord) : Prop where
  version : m.version = storedVersion
  current : ∃ c : StoredSession, m.current = some c ∧ c.Holds r.current
  previous : List.Forall₂ StoredSession.Holds m.previous r.previous

theorem Session.stored_holds (s : Session) : s.stored.Holds s := by
  obtain ⟨ps, hs, hp⟩ := SkippedKeys.exists_stored_eq_map s.ratchet.skipped
  exact ⟨ps, hp, by rw [← hs]; rfl⟩

theorem SessionRecord.stored_holds (r : SessionRecord) : r.stored.Holds r where
  version := rfl
  current := ⟨r.current.stored, rfl, r.current.stored_holds⟩
  previous := List.forall₂_map_left_iff.mpr (List.forall₂_same.mpr fun s _ => s.stored_holds)

theorem StoredSession.Holds.session_eq {m : StoredSession} {s : Session} (h : m.Holds s) :
    m.session = .ok s := by
  obtain ⟨ps, hp, rfl⟩ := h
  have hremote := storedOption_map (fun k => storedKey_toList "remote ratchet key" k)
  have hchain := storedOption_map StoredChain.chain_stored
  have hheader := storedOption_map StoredHeader.header_stored
  simp only [session, Session.stored, storedBlock_toList, storedKey_toList, hremote, hchain,
    hheader, StoredSkippedKey.collect_of_perm hp]
  rfl

theorem StoredRecord.Holds.record_eq {m : StoredRecord} {r : SessionRecord} (h : m.Holds r) :
    m.record = .ok r := by
  have hprevious : ∀ {ms : List StoredSession} {ss : List Session},
      List.Forall₂ StoredSession.Holds ms ss → ms.mapM StoredSession.session = .ok ss := by
    intro ms ss h
    induction h with
    | nil => rfl
    | cons hs _ ih =>
      rw [List.mapM_cons, hs.session_eq, ih]
      rfl
  obtain ⟨c, hc, hcurrent⟩ := h.current
  simp only [record, h.version, hc, hcurrent.session_eq, hprevious h.previous]
  rfl

/-- What is in one of two lists that go along is related to something in the other. -/
theorem exists_of_forall₂ {α β : Type} {R : α → β → Prop} {as : List α} {bs : List β}
    (h : List.Forall₂ R as bs) {a : α} (ha : a ∈ as) : ∃ b ∈ bs, R a b := by
  induction h with
  | nil => exact absurd ha List.not_mem_nil
  | cons hab _ ih =>
    rcases List.mem_cons.mp ha with rfl | ha
    · exact ⟨_, List.mem_cons_self, hab⟩
    · obtain ⟨b, hb, hab⟩ := ih ha
      exact ⟨b, List.mem_cons_of_mem _ hb, hab⟩

/-! ## From fields to messages -/

theorem StoredChain.read_fields (c : Chain) (depth : Nat) :
    read (depth + 1) (write c.stored.fields) = some c.stored.fields := by
  apply read_write
  · intro f hf
    rcases List.mem_append.mp hf with hf | hf
    · exact wellFormed_of_mem_blob (by decide) (by decide) hf
    · exact wellFormed_of_mem_scalar (by decide) (by decide) hf
  · intro f hf
    rcases List.mem_append.mp hf with hf | hf
    · exact short_of_mem_blob (by rw [Chain.stored, Block.length_toList]; decide) hf
    · exact short_of_mem_scalar hf

theorem StoredChain.ofFields?_fields (c : StoredChain) : ofFields? c.fields = some c := by
  have hkey : blob? c.fields 1 = some c.key := blob?_of_filter (by simp [fields])
  have hindex : scalar? c.fields 2 = some c.index := scalar?_of_filter (by simp [fields])
  simp only [ofFields?, hkey, hindex]
  rfl

theorem StoredSkippedKey.read_fields (p : SkippedId × Block 32) (depth : Nat) :
    read (depth + 1) (write (storedPair p).fields) = some (storedPair p).fields := by
  apply read_write
  · intro f hf
    simp only [fields, List.mem_append] at hf
    rcases hf with (hf | hf) | hf
    · exact wellFormed_of_mem_blob (by decide) (by decide) hf
    · exact wellFormed_of_mem_scalar (by decide) (by decide) hf
    · exact wellFormed_of_mem_blob (by decide) (by decide) hf
  · intro f hf
    simp only [fields, List.mem_append] at hf
    rcases hf with (hf | hf) | hf
    · exact short_of_mem_blob (by rw [storedPair, Block.length_toList]; decide) hf
    · exact short_of_mem_scalar hf
    · exact short_of_mem_blob (by rw [storedPair, Block.length_toList]; decide) hf

theorem StoredSkippedKey.ofFields?_fields (k : StoredSkippedKey) :
    ofFields? k.fields = some k := by
  have hratchet : blob? k.fields 1 = some k.ratchetKey := blob?_of_filter (by simp [fields])
  have hnumber : scalar? k.fields 2 = some k.number := scalar?_of_filter (by simp [fields])
  have hmessage : blob? k.fields 3 = some k.messageKey := blob?_of_filter (by simp [fields])
  simp only [ofFields?, hratchet, hnumber, hmessage]
  rfl

theorem StoredHeader.read_fields (h : PreKeyHeader) (depth : Nat) :
    read (depth + 1) (write h.stored.fields) = some h.stored.fields := by
  apply read_write
  · intro f hf
    simp only [fields, List.mem_append] at hf
    rcases hf with ((hf | hf) | hf) | hf
    · exact wellFormed_of_mem_blob (by decide) (by decide) hf
    · exact wellFormed_of_mem_scalar (by decide) (by decide) hf
    · exact wellFormed_of_mem_optionalScalar (by decide) (by decide) hf
    · exact wellFormed_of_mem_blob (by decide) (by decide) hf
  · intro f hf
    simp only [fields, List.mem_append] at hf
    rcases hf with ((hf | hf) | hf) | hf
    · exact short_of_mem_blob (by rw [PreKeyHeader.stored, Block.length_toList]; decide) hf
    · exact short_of_mem_scalar hf
    · exact short_of_mem_optionalScalar hf
    · exact short_of_mem_blob (by rw [PreKeyHeader.stored, Block.length_toList]; decide) hf

theorem StoredHeader.ofFields?_fields (h : StoredHeader) : ofFields? h.fields = some h := by
  have hidentity : blob? h.fields 1 = some h.identity := blob?_of_filter (by simp [fields])
  have hsigned : scalar? h.fields 2 = some h.signedPreKeyId := scalar?_of_filter (by simp [fields])
  have honeTime : optionalScalar? h.fields 3 = some h.oneTimePreKeyId :=
    optionalScalar?_of_filter (by simp [fields])
  have hbase : blob? h.fields 4 = some h.baseKey := blob?_of_filter (by simp [fields])
  simp only [ofFields?, hidentity, hsigned, honeTime, hbase]
  rfl

theorem optionalPart?_of_filter {α : Type} {ofFields? : List Field → Option α}
    (fields : α → List Field) {depth number : Nat} {fs : List Field} {o : Option α}
    (h : fs.filter (·.number == number) = optionalMessage number (o.map fields))
    (hread : ∀ a, o = some a → read (depth - 1) (write (fields a)) = some (fields a))
    (hof : ∀ a, o = some a → ofFields? (fields a) = some a) :
    optionalPart? ofFields? depth fs number = some o := by
  have hm : message? depth fs number = some (o.map fields) := by
    apply message?_of_filter h
    intro inner hi
    obtain ⟨a, ha, rfl⟩ := Option.map_eq_some_iff.mp hi
    exact hread a ha
  unfold optionalPart?
  rw [hm]
  cases o with
  | none => rfl
  | some a =>
    change (ofFields? (fields a)).map some = _
    rw [hof a rfl]
    rfl

theorem parts?_of_filter {α : Type} {ofFields? : List Field → Option α}
    (fields : α → List Field) {depth number : Nat} {fs : List Field} {as : List α}
    (h : fs.filter (·.number == number) = as.map fun a => message number (fields a))
    (hread : ∀ a ∈ as, read (depth - 1) (write (fields a)) = some (fields a))
    (hof : ∀ a ∈ as, ofFields? (fields a) = some a) :
    parts? ofFields? depth fs number = some as := by
  have hm : messages? depth fs number = some (as.map fields) := by
    apply messages?_of_filter
    · rw [h, List.map_map]
      rfl
    · intro inner hi
      obtain ⟨a, ha, rfl⟩ := List.mem_map.mp hi
      exact hread a ha
  unfold parts?
  rw [hm, Option.bind_some]
  clear h hread hm
  induction as with
  | nil => rfl
  | cons a as ih =>
    rw [List.map_cons, List.mapM_cons, hof a List.mem_cons_self,
      ih fun a ha => hof a (List.mem_cons_of_mem _ ha)]
    rfl

theorem filter_messages_map {α : Type} (number k : Nat) (fields : α → List Field) (as : List α) :
    (as.map fun a => message k (fields a)).filter (·.number == number) =
      if k = number then as.map fun a => message k (fields a) else [] := by
  have h := filter_messages number k (as.map fields)
  rwa [List.map_map] at h

/-! ## Sessions -/

theorem length_write_chain_le (c : Chain) : (write c.stored.fields).length ≤ 72 := by
  have hkey := length_write_blob_le 1 c.key.toList
  have hindex := length_write_scalar_le 2 c.index
  rw [Block.length_toList] at hkey
  change (write (blob 1 c.key.toList ++ scalar 2 c.index)).length ≤ 72
  rw [length_write_append]
  omega

theorem length_write_skippedKey_le (p : SkippedId × Block 32) :
    (write (storedPair p).fields).length ≤ 124 := by
  have hratchet := length_write_blob_le 1 p.1.ratchetKey.toList
  have hnumber := length_write_scalar_le 2 p.1.number
  have hmessage := length_write_blob_le 3 p.2.toList
  rw [Block.length_toList] at hratchet hmessage
  change (write (blob 1 p.1.ratchetKey.toList ++ scalar 2 p.1.number ++
    blob 3 p.2.toList)).length ≤ 124
  rw [length_write_append, length_write_append]
  omega

theorem length_write_header_le (h : PreKeyHeader) : (write h.stored.fields).length ≤ 144 := by
  have hidentity := length_write_blob_le 1 h.identity.bytes.toList
  have hsigned := length_write_scalar_le 2 h.signedPreKeyId
  have honeTime := length_write_optionalScalar_le 3 h.oneTimePreKeyId
  have hbase := length_write_blob_le 4 h.baseKey.bytes.toList
  rw [Block.length_toList] at hidentity hbase
  change (write (blob 1 h.identity.bytes.toList ++ scalar 2 h.signedPreKeyId ++
    optionalScalar 3 h.oneTimePreKeyId ++ blob 4 h.baseKey.bytes.toList)).length ≤ 144
  rw [length_write_append, length_write_append, length_write_append]
  omega

/-- The fields of a session are always read again. -/
theorem StoredSession.Holds.read_fields {m : StoredSession} {s : Session} (h : m.Holds s)
    (depth : Nat) : read (depth + 1) (write m.fields) = some m.fields := by
  obtain ⟨ps, -, rfl⟩ := h
  apply read_write
  · intro f hf
    simp only [fields, List.mem_append] at hf
    rcases hf with (((((((((((hf | hf) | hf) | hf) | hf) | hf) | hf) | hf) | hf) | hf) | hf) |
      hf) | hf
    · exact wellFormed_of_mem_scalar (by decide) (by decide) hf
    · exact wellFormed_of_mem_blob (by decide) (by decide) hf
    · exact wellFormed_of_mem_blob (by decide) (by decide) hf
    · exact wellFormed_of_mem_optionalBlob (by decide) (by decide) hf
    · exact wellFormed_of_mem_blob (by decide) (by decide) hf
    · exact wellFormed_of_mem_optionalMessage (by decide) (by decide) hf
    · exact wellFormed_of_mem_optionalMessage (by decide) (by decide) hf
    · exact wellFormed_of_mem_scalar (by decide) (by decide) hf
    · obtain ⟨k, -, rfl⟩ := List.mem_map.mp hf
      exact wellFormed_bytes _ (by decide) (by decide)
    · exact wellFormed_of_mem_scalar (by decide) (by decide) hf
    · exact wellFormed_of_mem_blob (by decide) (by decide) hf
    · exact wellFormed_of_mem_blob (by decide) (by decide) hf
    · exact wellFormed_of_mem_optionalMessage (by decide) (by decide) hf
  · have hblock : ∀ {n : Nat} (b : Block n), n < UInt64.size → b.toList.length < UInt64.size := by
      intro n b hn
      rw [Block.length_toList]
      exact hn
    have hchain : ∀ (c : Option Chain) fs, (c.map Chain.stored).map StoredChain.fields = some fs →
        (write fs).length < UInt64.size := by
      rintro (_ | c) fs h <;> cases h
      exact Nat.lt_of_le_of_lt (length_write_chain_le c) (by decide)
    intro f hf
    simp only [fields, List.mem_append] at hf
    rcases hf with (((((((((((hf | hf) | hf) | hf) | hf) | hf) | hf) | hf) | hf) | hf) | hf) |
      hf) | hf
    · exact short_of_mem_scalar hf
    · exact short_of_mem_blob (hblock _ (by decide)) hf
    · exact short_of_mem_blob (hblock _ (by decide)) hf
    · refine short_of_mem_optionalBlob (fun bs h => ?_) hf
      obtain ⟨k, -, rfl⟩ := Option.map_eq_some_iff.mp h
      exact hblock _ (by decide)
    · exact short_of_mem_blob (hblock _ (by decide)) hf
    · exact short_of_mem_optionalMessage (hchain _) hf
    · exact short_of_mem_optionalMessage (hchain _) hf
    · exact short_of_mem_scalar hf
    · obtain ⟨k, hk, rfl⟩ := List.mem_map.mp hf
      obtain ⟨p, -, rfl⟩ := List.mem_map.mp hk
      exact short_bytes _ (Nat.lt_of_le_of_lt (length_write_skippedKey_le p) (by decide))
    · exact short_of_mem_scalar hf
    · exact short_of_mem_blob (hblock _ (by decide)) hf
    · exact short_of_mem_blob (hblock _ (by decide)) hf
    · refine short_of_mem_optionalMessage (fun fs h => ?_) hf
      obtain ⟨_, h', rfl⟩ := Option.map_eq_some_iff.mp h
      obtain ⟨header, -, rfl⟩ := Option.map_eq_some_iff.mp h'
      exact Nat.lt_of_le_of_lt (length_write_header_le header) (by decide)

theorem StoredSession.Holds.ofFields?_fields {m : StoredSession} {s : Session} (h : m.Holds s)
    (depth : Nat) : ofFields? (depth + 2) m.fields = some m := by
  obtain ⟨ps, -, hm⟩ := h
  have hsending : m.sending = s.ratchet.sending.map Chain.stored := by rw [hm]; rfl
  have hreceiving : m.receiving = s.ratchet.receiving.map Chain.stored := by rw [hm]; rfl
  have hpending : m.pending = s.pending.map PreKeyHeader.stored := by rw [hm]; rfl
  have hskipped : m.skipped = ps.map storedPair := by rw [hm]
  have hchain : ∀ (o : Option Chain) (c : StoredChain), o.map Chain.stored = some c →
      read (depth + 2 - 1) (write c.fields) = some c.fields := by
    rintro (_ | c) _ ⟨⟩
    exact StoredChain.read_fields c depth
  have h1 : scalar? m.fields 1 = some m.version :=
    scalar?_of_filter (by simp [fields, filter_messages_map])
  have h2 : blob? m.fields 2 = some m.associatedData :=
    blob?_of_filter (by simp [fields, filter_messages_map])
  have h3 : blob? m.fields 3 = some m.secret :=
    blob?_of_filter (by simp [fields, filter_messages_map])
  have h4 : optionalBlob? m.fields 4 = some m.remote :=
    optionalBlob?_of_filter (by simp [fields, filter_messages_map])
  have h5 : blob? m.fields 5 = some m.rootKey :=
    blob?_of_filter (by simp [fields, filter_messages_map])
  have h6 : optionalPart? StoredChain.ofFields? (depth + 2) m.fields 6 =
      some m.sending :=
    optionalPart?_of_filter _ (by simp [fields, filter_messages_map])
      (hsending ▸ hchain _) fun c _ => StoredChain.ofFields?_fields c
  have h7 : optionalPart? StoredChain.ofFields? (depth + 2) m.fields 7 =
      some m.receiving :=
    optionalPart?_of_filter _ (by simp [fields, filter_messages_map])
      (hreceiving ▸ hchain _) fun c _ => StoredChain.ofFields?_fields c
  have h8 : scalar? m.fields 8 = some m.previousLength :=
    scalar?_of_filter (by simp [fields, filter_messages_map])
  have h9 : parts? StoredSkippedKey.ofFields? (depth + 2) m.fields 9 =
      some m.skipped := by
    refine parts?_of_filter _ (by simp [fields, filter_messages_map]) (fun k hk => ?_)
      fun k _ => StoredSkippedKey.ofFields?_fields k
    rw [hskipped] at hk
    obtain ⟨p, -, rfl⟩ := List.mem_map.mp hk
    exact StoredSkippedKey.read_fields p depth
  have h10 : scalar? m.fields 10 = some m.maxSkip :=
    scalar?_of_filter (by simp [fields, filter_messages_map])
  have h11 : blob? m.fields 11 = some m.remoteIdentity :=
    blob?_of_filter (by simp [fields, filter_messages_map])
  have h12 : blob? m.fields 12 = some m.baseKey :=
    blob?_of_filter (by simp [fields, filter_messages_map])
  have h13 : optionalPart? StoredHeader.ofFields? (depth + 2) m.fields 13 =
      some m.pending := by
    refine optionalPart?_of_filter _ (by simp [fields, filter_messages_map]) (fun h hh => ?_)
      fun h _ => StoredHeader.ofFields?_fields h
    rw [hpending] at hh
    obtain ⟨header, -, rfl⟩ := Option.map_eq_some_iff.mp hh
    exact StoredHeader.read_fields header depth
  simp only [ofFields?, h1, h2, h3, h4, h5, h6, h7, h8, h9, h10, h11, h12, h13]
  rfl

/-! ## Records -/

theorem StoredRecord.wellFormed_of_mem_fields {r : StoredRecord} {f : Field} (hf : f ∈ r.fields) :
    f.WellFormed := by
  simp only [fields, List.mem_append] at hf
  rcases hf with (hf | hf) | hf
  · exact wellFormed_of_mem_scalar (by decide) (by decide) hf
  · exact wellFormed_of_mem_optionalMessage (by decide) (by decide) hf
  · obtain ⟨s, -, rfl⟩ := List.mem_map.mp hf
    exact wellFormed_bytes _ (by decide) (by decide)

theorem StoredRecord.Holds.ofFields?_fields {m : StoredRecord} {r : SessionRecord}
    (h : m.Holds r) (depth : Nat) : ofFields? (depth + 3) m.fields = some m := by
  obtain ⟨c, hc, hcurrent⟩ := h.current
  have h1 : scalar? m.fields 1 = some m.version :=
    scalar?_of_filter (by simp [fields, filter_messages_map])
  have h2 : optionalPart? (StoredSession.ofFields? (depth + 3 - 1)) (depth + 3) m.fields 2 =
      some m.current := by
    refine optionalPart?_of_filter StoredSession.fields
      (by simp [fields, filter_messages_map]) (fun s hs => ?_) fun s hs => ?_
    · cases hc.symm.trans hs
      exact hcurrent.read_fields (depth + 1)
    · cases hc.symm.trans hs
      exact hcurrent.ofFields?_fields depth
  have h3 : parts? (StoredSession.ofFields? (depth + 3 - 1)) (depth + 3) m.fields 3 =
      some m.previous := by
    refine parts?_of_filter StoredSession.fields
      (by simp [fields, filter_messages_map]) (fun s hs => ?_) fun s hs => ?_
    · obtain ⟨session, -, hholds⟩ := exists_of_forall₂ h.previous hs
      exact hholds.read_fields (depth + 1)
    · obtain ⟨session, -, hholds⟩ := exists_of_forall₂ h.previous hs
      exact hholds.ofFields?_fields depth
  simp only [ofFields?, h1, h2, h3]
  rfl

/-! ## Bytes -/

/-- A session is read from any message of it. -/
theorem StoredSession.Holds.deserialize {m : StoredSession} {s : Session} (h : m.Holds s) :
    Session.deserialize (write m.fields) = .ok s := by
  have hread : read depthLimit (write m.fields) = some m.fields := h.read_fields 99
  have hof : StoredSession.ofFields? depthLimit m.fields = some m := h.ofFields?_fields 98
  rw [Session.deserialize, hread, Option.bind_some, hof]
  exact h.session_eq

/-- All messages of a session take as many bytes. -/
theorem StoredSession.Holds.length_write {m : StoredSession} {s : Session} (h : m.Holds s) :
    (write m.fields).length = s.serialize.length := by
  obtain ⟨ps, hp, rfl⟩ := h
  obtain ⟨ps', hs', hp'⟩ := SkippedKeys.exists_stored_eq_map s.ratchet.skipped
  have hskipped : (ps.map storedPair).Perm s.stored.skipped := by
    rw [show s.stored.skipped = ps'.map storedPair from hs']
    exact (hp.trans hp'.symm).map storedPair
  have hkeys := hskipped.map fun k => message 9 k.fields
  refine length_write_of_perm ?_
  simp only [fields]
  exact ((((hkeys.append_left _).append_right _).append_right _).append_right _).append_right _

namespace StoredRecord.Holds

variable {m : StoredRecord} {r r' : SessionRecord}

/-- A record is read from any message of it whose parts are short. -/
theorem deserialize (h : m.Holds r) (hs : ∀ f ∈ m.fields, f.Short) :
    SessionRecord.deserialize (write m.fields) = .ok r := by
  have hread : read depthLimit (write m.fields) = some m.fields :=
    read_write 99 (fun _ => wellFormed_of_mem_fields) hs
  have hof : ofFields? depthLimit m.fields = some m := h.ofFields?_fields 97
  rw [SessionRecord.deserialize, hread, Option.bind_some, hof]
  exact h.record_eq

/-- What is read from a message of a record at all is the record, and the parts of the message are
short. -/
theorem of_deserialize (h : m.Holds r) (hd : SessionRecord.deserialize (write m.fields) = .ok r') :
    r' = r ∧ ∀ f ∈ m.fields, f.Short := by
  have hof : ofFields? depthLimit m.fields = some m := h.ofFields?_fields 97
  unfold SessionRecord.deserialize at hd
  cases hread : read depthLimit (write m.fields) with
  | none =>
    rw [hread, Option.bind_none] at hd
    cases hd
  | some fs =>
    obtain ⟨rfl, hs⟩ := eq_of_read_write 99 (fun _ => wellFormed_of_mem_fields) hread
    rw [hread, Option.bind_some, hof] at hd
    exact ⟨Except.ok.inj (hd.symm.trans h.record_eq), hs⟩

/-- The parts of a message are short if the sessions are. -/
theorem short_iff (h : m.Holds r) :
    (∀ f ∈ m.fields, f.Short) ↔ ∀ s ∈ r.sessions, s.serialize.length < UInt64.size := by
  obtain ⟨c, hc, hcurrent⟩ := h.current
  constructor
  · intro hs s hmem
    rcases List.mem_cons.mp hmem with rfl | hmem
    · have hf : message 2 c.fields ∈ m.fields := by simp [fields, hc, optionalMessage]
      rw [← hcurrent.length_write]
      exact hs _ hf _ rfl
    · obtain ⟨c', hc', hholds⟩ := exists_of_forall₂ h.previous.flip hmem
      have hf : message 3 c'.fields ∈ m.fields := by
        rw [fields]
        exact List.mem_append_right _ (List.mem_map_of_mem hc')
      rw [← StoredSession.Holds.length_write hholds]
      exact hs _ hf _ rfl
  · intro hs f hf
    simp only [fields, List.mem_append] at hf
    rcases hf with (hf | hf) | hf
    · exact short_of_mem_scalar hf
    · refine short_of_mem_optionalMessage (fun fs hfs => ?_) hf
      rw [hc] at hfs
      cases hfs
      rw [hcurrent.length_write]
      exact hs r.current List.mem_cons_self
    · obtain ⟨c', hc', rfl⟩ := List.mem_map.mp hf
      obtain ⟨s, hmem, hholds⟩ := exists_of_forall₂ h.previous hc'
      refine short_bytes _ ?_
      rw [hholds.length_write]
      exact hs s (List.mem_cons_of_mem _ hmem)

/-- A record is read from a message of it exactly if its sessions are short. -/
theorem deserialize_iff (h : m.Holds r) :
    SessionRecord.deserialize (write m.fields) = .ok r ↔
      ∀ s ∈ r.sessions, s.serialize.length < UInt64.size :=
  ⟨fun hd => h.short_iff.mp (h.of_deserialize hd).2, fun hs => h.deserialize (h.short_iff.mpr hs)⟩

end StoredRecord.Holds

namespace SessionRecord

/-- A record of fewer than `2 ^ 64` bytes is read again as it was. -/
theorem deserialize_serialize {r : SessionRecord} (h : r.serialize.length < UInt64.size) :
    deserialize r.serialize = .ok r :=
  r.stored_holds.deserialize fun _ => short_of_length_write h

/-- Whatever was stored, no other record is read. -/
theorem eq_of_deserialize_serialize {r r' : SessionRecord}
    (h : deserialize r.serialize = .ok r') : r' = r :=
  (r.stored_holds.of_deserialize h).1

end SessionRecord

/-- **Nothing is lost in storage.** A session is read again as it was, whichever of its chains there
are and whatever its numbers, its keys and its header, and in whatever order the message keys put
aside were written. So is a record, with the same sessions in the same order, exactly if the length
of each of them has 64 bits, as lengths in memory have. -/
theorem survives_storage :
    (∀ s : Session, Session.deserialize s.serialize = .ok s ∧
      ∀ m : StoredSession, m.Holds s → Session.deserialize (write m.fields) = .ok s) ∧
    ∀ r : SessionRecord,
      (SessionRecord.deserialize r.serialize = .ok r ↔
        ∀ s ∈ r.sessions, s.serialize.length < UInt64.size) ∧
      ∀ m : StoredRecord, m.Holds r →
        (SessionRecord.deserialize (write m.fields) = .ok r ↔
          ∀ s ∈ r.sessions, s.serialize.length < UInt64.size) :=
  ⟨fun s => ⟨s.stored_holds.deserialize, fun _ hm => hm.deserialize⟩,
    fun r => ⟨r.stored_holds.deserialize_iff, fun _ hm => hm.deserialize_iff⟩⟩

section Reversed

/-- A session with two message keys put aside and a header that names one-time pre-key 0. -/
def Session.paused : Session :=
  let key : PublicKey := ⟨Block.zero 32⟩
  { ratchet := {
      associatedData := Block.zero 64, secret := Block.zero 32, remote := some key
      rootKey := Block.zero 32, sending := none, receiving := some ⟨Block.zero 32, 2⟩
      previousLength := 0, maxSkip := 10
      skipped := (∅ : SkippedKeys).insert ⟨Block.zero 32, 0⟩ (Block.zero 32)
        |>.insert ⟨Block.zero 32, 1⟩ (Block.zero 32) }
    remoteIdentity := key
    baseKey := key
    pending := some { identity := key, signedPreKeyId := 1, oneTimePreKeyId := some 0
                      baseKey := key } }

/-- The message of that session with the keys put aside in some order. -/
def Session.paused.storedAs (ps : List (SkippedId × Block 32)) : StoredSession :=
  { Session.paused.stored with skipped := ps.map storedPair }

/-- A session is read from two messages that differ in the order of the keys put aside, and a record
from a message in which its two sessions are written in either order. -/
theorem survives_storage_of_reversed :
    ∃ c c' : StoredSession, c ≠ c' ∧ Session.deserialize (write c.fields) = .ok .paused ∧
      Session.deserialize (write c'.fields) = .ok .paused ∧
      SessionRecord.deserialize (write (StoredRecord.fields ⟨storedVersion, some c, [c']⟩)) =
        .ok ⟨.paused, [.paused]⟩ := by
  let ps := Std.ExtTreeMap.toList Session.paused.ratchet.skipped
  have hc : (Session.paused.storedAs ps).Holds .paused := ⟨ps, .refl ps, rfl⟩
  have hc' : (Session.paused.storedAs ps.reverse).Holds .paused :=
    ⟨ps.reverse, List.reverse_perm ps, rfl⟩
  have hm : StoredRecord.Holds ⟨storedVersion, some (Session.paused.storedAs ps),
      [Session.paused.storedAs ps.reverse]⟩ ⟨.paused, [.paused]⟩ :=
    ⟨rfl, ⟨_, rfl, hc⟩, .cons hc' .nil⟩
  have hother : ps.map storedPair ≠ ps.reverse.map storedPair := by decide +kernel
  have hshort : Session.paused.serialize.length < UInt64.size := by
    rw [← hc.length_write]
    decide +kernel
  refine ⟨_, _, fun h => hother (congrArg StoredSession.skipped h),
    (survives_storage.1 .paused).2 _ hc, (survives_storage.1 .paused).2 _ hc',
    ((survives_storage.2 _).2 _ hm).mpr fun s hs => ?_⟩
  have hpaused : s = .paused := by simpa [SessionRecord.sessions] using hs
  rw [hpaused]
  exact hshort

end Reversed

end MultiDevice
