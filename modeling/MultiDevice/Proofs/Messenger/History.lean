import MultiDevice.Messenger.Decrypt

/-!
# Reading archived envelopes

Archived envelopes are read lazily: each message that is asked for takes as many envelopes as it has
to. That comes to the same as reading one envelope after the other. The messages are those that come
of it, in order, and every envelope that was taken is accounted for, by its message, by the count of
those that were not for this device, or by a failure with its own place. After some messages,
exactly the envelopes up to the last of them were read.

## Main definitions

* `Messenger.readAll`: reads envelopes one after the other
* `messagesOf`: the messages that came of envelopes
* `History.Reports`: the report of a history accounts for every envelope that was read
* `History.Takes`: the envelopes that messages take

## Main results

* `History.Reports.advance`: one more envelope is accounted for
* `History.exists_of_nextFrom`, `History.exists_of_take`: messages are pulled as `Takes` says
* `History.reads_in_order`: reading lazily is reading one envelope after the other
-/

namespace MultiDevice

/-- Whether an envelope was not for this device. -/
def Decryption.isNotForMe : Decryption → Bool
  | notForMe _ => true
  | _ => false

/-- The messages that came of envelopes. -/
def messagesOf (reads : List (Archived × Decryption)) : List ClearText :=
  reads.filterMap fun read => read.2.result.toOption

@[simp] theorem messagesOf_append (reads more : List (Archived × Decryption)) :
    messagesOf (reads ++ more) = messagesOf reads ++ messagesOf more :=
  List.filterMap_append

@[simp] theorem messagesOf_decrypted (entry : Archived) (message : ClearText) :
    messagesOf [(entry, .decrypted message)] = [message] := rfl

@[simp] theorem messagesOf_notForMe (entry : Archived) (device : DeviceAddress) :
    messagesOf [(entry, .notForMe device)] = [] := rfl

@[simp] theorem messagesOf_failed (entry : Archived) (error : Error) :
    messagesOf [(entry, .failed error)] = [] := rfl

theorem length_messagesOf_le (reads : List (Archived × Decryption)) :
    (messagesOf reads).length ≤ reads.length :=
  List.length_filterMap_le _ _

/-- Reads archived envelopes one after the other. -/
def Messenger.readAll [CipherSuite] :
    List Archived → Scene → List (Archived × Decryption) × Scene
  | [], s => ([], s)
  | entry :: rest, s =>
    let (d, t) := decrypt entry.sender entry.envelope s
    let (reads, u) := readAll rest t
    ((entry, d) :: reads, u)

namespace History

open Messenger (readAll)

variable {h : History} {reads : List (Archived × Decryption)}

/-- The report of a history on envelopes that were read: each failure has the place and the sender
of its envelope, in the order of their places, and the other envelopes that yielded no message are
counted. -/
structure Reports (h : History) (reads : List (Archived × Decryption)) : Prop where
  index : h.index = reads.length
  failure : ∀ f, f ∈ h.failures ↔
    ∃ entry, reads[f.index]? = some (entry, .failed f.error) ∧ entry.sender = f.sender
  increasing : h.failures.Pairwise fun f f' => f.index < f'.index
  notForMe : h.notForMe = reads.countP fun read => read.2.isNotForMe
  accounted : (messagesOf reads).length + h.notForMe + h.failures.length = reads.length

theorem reports_ofEntries (entries : List Archived) : (ofEntries entries).Reports [] where
  index := rfl
  failure f := by simp [ofEntries]
  increasing := .nil
  notForMe := rfl
  accounted := rfl

/-- The history after one more envelope. -/
def advance (h : History) (entry : Archived) (d : Decryption) : History :=
  { h.note entry.sender d with index := h.index + 1 }

/-- What stands in a list with one more element at its end. -/
theorem getElem?_concat_eq_some_iff {α : Type} {xs : List α} {x y : α} {i : Nat} :
    (xs ++ [x])[i]? = some y ↔ xs[i]? = some y ∨ (i = xs.length ∧ x = y) := by
  rcases Nat.lt_trichotomy i xs.length with hlt | rfl | hgt
  · rw [List.getElem?_append_left hlt]
    simp [Nat.ne_of_lt hlt]
  · simp
  · rw [List.getElem?_append_right (Nat.le_of_lt hgt), List.getElem?_eq_none (Nat.le_of_lt hgt),
      List.getElem?_eq_none (by rw [List.length_singleton]; omega)]
    simp [Nat.ne_of_gt hgt]

/-- A failure stands behind those from before, because its place is the next one. -/
theorem Reports.index_lt (hr : h.Reports reads) {f : HistoryFailure} (hf : f ∈ h.failures) :
    f.index < h.index := by
  obtain ⟨entry, hread, -⟩ := (hr.failure f).mp hf
  rw [hr.index]
  exact (List.getElem?_eq_some_iff.mp hread).1

/-- An envelope that did not fail leaves the failures as they were. -/
theorem Reports.failure_concat (hr : h.Reports reads) (entry : Archived) {d : Decryption}
    (hd : ∀ error, d ≠ .failed error) (f : HistoryFailure) :
    f ∈ h.failures ↔ ∃ e, (reads ++ [(entry, d)])[f.index]? = some (e, .failed f.error) ∧
      e.sender = f.sender := by
  rw [hr.failure]
  refine exists_congr fun e => and_congr_left fun _ => ?_
  rw [getElem?_concat_eq_some_iff, or_iff_left]
  rintro ⟨-, hread⟩
  exact hd f.error (congrArg Prod.snd hread)

/-- An envelope that failed has its own place and sender among the failures. -/
theorem Reports.failure_failed (hr : h.Reports reads) (entry : Archived) (error : Error)
    (f : HistoryFailure) :
    f ∈ (h.note entry.sender (.failed error)).failures ↔
      ∃ e, (reads ++ [(entry, .failed error)])[f.index]? = some (e, .failed f.error) ∧
        e.sender = f.sender := by
  simp only [note, List.mem_append, List.mem_singleton, hr.failure, getElem?_concat_eq_some_iff,
    or_and_right, exists_or]
  refine or_congr_right ⟨?_, ?_⟩
  · rintro rfl
    exact ⟨entry, ⟨hr.index, rfl⟩, rfl⟩
  · rintro ⟨e, ⟨hindex, hread⟩, hsender⟩
    obtain ⟨index, sender, error'⟩ := f
    cases hread
    dsimp only at hindex hsender
    rw [hindex, ← hr.index, ← hsender]

/-- One more envelope is accounted for. -/
theorem Reports.advance (hr : h.Reports reads) (entry : Archived) (d : Decryption) :
    (h.advance entry d).Reports (reads ++ [(entry, d)]) := by
  have hindex : h.index + 1 = (reads ++ [(entry, d)]).length := by
    rw [hr.index, List.length_append, List.length_singleton]
  have haccounted := hr.accounted
  cases d with
  | decrypted message =>
    refine ⟨hindex, hr.failure_concat entry nofun, hr.increasing, ?_, ?_⟩
    · simp [History.advance, note, hr.notForMe, Decryption.isNotForMe]
    · simp only [History.advance, note, messagesOf_append, messagesOf_decrypted, List.length_append,
        List.length_singleton]
      omega
  | notForMe device =>
    refine ⟨hindex, hr.failure_concat entry nofun, hr.increasing, ?_, ?_⟩
    · simp [History.advance, note, hr.notForMe, Decryption.isNotForMe]
    · simp only [History.advance, note, messagesOf_append, messagesOf_notForMe, List.length_append,
        List.length_singleton, List.length_nil]
      omega
  | failed error =>
    refine ⟨hindex, hr.failure_failed entry error, ?_, ?_, ?_⟩
    · refine List.pairwise_append.mpr ⟨hr.increasing, List.pairwise_singleton _ _, ?_⟩
      intro f hf f' hf'
      rw [List.mem_singleton.mp hf']
      exact hr.index_lt hf
    · simp [History.advance, note, hr.notForMe, Decryption.isNotForMe]
    · simp only [History.advance, note, messagesOf_append, messagesOf_failed, List.length_append,
        List.length_singleton, List.length_nil]
      omega

/-- What is still to be read does not matter for a report. -/
theorem Reports.withEntries (hr : h.Reports reads) (entries : List Archived) :
    Reports { h with entries } reads :=
  ⟨hr.index, hr.failure, hr.increasing, hr.notForMe, hr.accounted⟩

variable [CipherSuite]

theorem readAll_cons (entry : Archived) (rest : List Archived) (s : Scene) :
    readAll (entry :: rest) s =
      ((entry, (Messenger.decrypt entry.sender entry.envelope s).1) ::
          (readAll rest (Messenger.decrypt entry.sender entry.envelope s).2).1,
        (readAll rest (Messenger.decrypt entry.sender entry.envelope s).2).2) := rfl

/-- Envelopes that are read one after the other may be read in two parts. -/
theorem readAll_append (first rest : List Archived) (s : Scene) :
    readAll (first ++ rest) s =
      ((readAll first s).1 ++ (readAll rest (readAll first s).2).1,
        (readAll rest (readAll first s).2).2) := by
  induction first generalizing s with
  | nil => rfl
  | cons entry first ih => rw [List.cons_append, readAll_cons, ih, readAll_cons, List.cons_append]

theorem length_readAll (entries : List Archived) (s : Scene) :
    (readAll entries s).1.length = entries.length := by
  induction entries generalizing s with
  | nil => rfl
  | cons entry rest ih => rw [readAll_cons, List.length_cons, List.length_cons, ih]

/-- A pull of `count` messages that went through the envelopes `done`, of those in `rest`, when
`reads` had come of the envelopes before. It ends with the envelope that yields the last message, or
where no envelopes are left. -/
structure Takes (count : Nat) (rest : List Archived) (s : Scene)
    (reads : List (Archived × Decryption)) (pulled : List ClearText) (h : History) (t : Scene)
    (done : List Archived) : Prop where
  split : rest = done ++ h.entries
  scene : t = (readAll done s).2
  reports : h.Reports (reads ++ (readAll done s).1)
  messages : pulled = messagesOf (readAll done s).1
  enough : pulled.length = count ∨ pulled.length < count ∧ h.entries = []
  least : ∀ n < done.length, (messagesOf ((readAll done s).1.take n)).length < count

section Takes

variable {count : Nat} {rest done : List Archived} {s t : Scene} {pulled : List ClearText}

/-- Where fewer messages were left, asking for more changes nothing. -/
theorem Takes.mono (ht : Takes count rest s reads pulled h t done) {more : Nat}
    (hfew : pulled.length < count) (hle : count ≤ more) :
    Takes more rest s reads pulled h t done := by
  refine ⟨ht.split, ht.scene, ht.reports, ht.messages, .inr ⟨Nat.lt_of_lt_of_le hfew hle, ?_⟩,
    fun n hn => Nat.lt_of_lt_of_le (ht.least n hn) hle⟩
  rcases ht.enough with heq | ⟨-, hend⟩
  · exact absurd heq (Nat.ne_of_lt hfew)
  · exact hend

/-- An envelope that yields no message is read on the way. -/
theorem Takes.cons {entry : Archived} {d : Decryption} {u : Scene}
    (hd : Messenger.decrypt entry.sender entry.envelope s = (d, u))
    (hnone : messagesOf [(entry, d)] = [])
    (ht : Takes count rest u (reads ++ [(entry, d)]) pulled h t done) (hcount : 0 < count) :
    Takes count (entry :: rest) s reads pulled h t (entry :: done) := by
  have hread : readAll (entry :: done) s =
      ((entry, d) :: (readAll done u).1, (readAll done u).2) := by
    rw [readAll_cons, hd]
  have hmessages : ∀ more, messagesOf ((entry, d) :: more) = messagesOf more := by
    intro more
    rw [← List.singleton_append, messagesOf_append, hnone, List.nil_append]
  refine ⟨?_, ?_, ?_, ?_, ht.enough, fun n hn => ?_⟩
  · rw [ht.split, List.cons_append]
  · rw [hread]
    exact ht.scene
  · rw [hread, ← List.singleton_append, ← List.append_assoc]
    exact ht.reports
  · rw [hread, hmessages]
    exact ht.messages
  · rw [hread]
    cases n with
    | zero => exact hcount
    | succ n =>
      rw [List.take_succ_cons, hmessages]
      exact ht.least n (Nat.lt_of_succ_lt_succ hn)

/-- One message and then more of them take the envelopes of both pulls. -/
theorem Takes.append {message : ClearText} {h' : History} {u : Scene} {others : List ClearText}
    {further : List Archived} (ht : Takes 1 rest s reads [message] h t done)
    (hmore : Takes count h.entries t (reads ++ (readAll done s).1) others h' u further) :
    Takes (count + 1) rest s reads (message :: others) h' u (done ++ further) := by
  have hscene := ht.scene
  subst hscene
  have hfirst : messagesOf (readAll done s).1 = [message] := ht.messages.symm
  refine ⟨?_, ?_, ?_, ?_, ?_, fun n hn => ?_⟩
  · rw [List.append_assoc, ← hmore.split]
    exact ht.split
  · rw [readAll_append]
    exact hmore.scene
  · rw [readAll_append, ← List.append_assoc]
    exact hmore.reports
  · rw [readAll_append, messagesOf_append, hfirst, ← hmore.messages]
    rfl
  · rw [List.length_cons, Nat.add_right_cancel_iff, Nat.add_lt_add_iff_right]
    exact hmore.enough
  · rw [readAll_append, List.take_append, messagesOf_append, List.length_append, length_readAll]
    -- The first `n` envelopes end before the first message, or in the second pull.
    rcases Nat.lt_or_ge n done.length with hlt | hge
    · rw [Nat.sub_eq_zero_of_le (Nat.le_of_lt hlt)]
      have hleast := ht.least n hlt
      simp only [List.take_zero]
      change _ + 0 < count + 1
      omega
    · rw [List.length_append] at hn
      have hleast := hmore.least (n - done.length) (by omega)
      rw [List.take_of_length_le (by rw [length_readAll]; exact hge), hfirst]
      simp only [List.length_singleton]
      omega

end Takes

/-- The next message takes the envelopes up to the first one that yields a message, or all. -/
theorem exists_of_nextFrom (rest : List Archived) (s : Scene) (hr : h.Reports reads) :
    ∃ done, Takes 1 rest s reads (nextFrom rest h s).1.toList (nextFrom rest h s).2.1
      (nextFrom rest h s).2.2 done := by
  -- Induction on the envelopes to be read, from any report and any scene.
  induction rest generalizing h reads s with
  | nil =>
    refine ⟨[], rfl, rfl, ?_, rfl, .inr ⟨Nat.one_pos, rfl⟩, nofun⟩
    rw [readAll, List.append_nil]
    exact hr.withEntries []
  | cons entry rest ih =>
    obtain ⟨d, t, hd⟩ : ∃ d t, Messenger.decrypt entry.sender entry.envelope s = (d, t) :=
      ⟨_, _, rfl⟩
    have hadvance := hr.advance entry d
    cases d with
    | decrypted message =>
      simp only [nextFrom, hd]
      have hread : readAll [entry] s = ([(entry, .decrypted message)], t) := by
        rw [readAll_cons, hd]
        rfl
      refine ⟨[entry], rfl, by rw [hread], ?_, by rw [hread]; rfl, .inl rfl, fun n hn => ?_⟩
      · rw [hread]
        exact hadvance.withEntries rest
      · rw [Nat.lt_one_iff.mp hn]
        exact Nat.one_pos
    | notForMe device =>
      simp only [nextFrom, hd]
      obtain ⟨done, ht⟩ := ih t hadvance
      exact ⟨entry :: done, ht.cons hd rfl Nat.one_pos⟩
    | failed error =>
      simp only [nextFrom, hd]
      obtain ⟨done, ht⟩ := ih t hadvance
      exact ⟨entry :: done, ht.cons hd rfl Nat.one_pos⟩

/-- Messages that are pulled one after the other take the envelopes up to the last of them. -/
theorem exists_of_take (count : Nat) (s : Scene) (hr : h.Reports reads) :
    ∃ done, Takes count h.entries s reads (take count h s).1 (take count h s).2.1
      (take count h s).2.2 done := by
  -- Induction on the number of messages, from any history and any scene.
  induction count generalizing h s reads with
  | zero =>
    refine ⟨[], rfl, rfl, ?_, rfl, .inl rfl, nofun⟩
    rw [readAll, List.append_nil]
    exact hr
  | succ count ih =>
    obtain ⟨done, ht⟩ := exists_of_nextFrom h.entries s hr
    obtain ⟨message?, h', t, hnext⟩ : ∃ message? h' t, nextFrom h.entries h s = (message?, h', t) :=
      ⟨_, _, _, rfl⟩
    rw [hnext] at ht
    cases message? with
    | none =>
      simp only [take, next, hnext]
      exact ⟨done, ht.mono Nat.one_pos (Nat.succ_le_succ (Nat.zero_le count))⟩
    | some message =>
      simp only [take, next, hnext]
      obtain ⟨further, hmore⟩ := ih t ht.reports
      exact ⟨done ++ further, ht.append hmore⟩

section Takes

variable {count : Nat} {entries done : List Archived} {s t : Scene} {pulled : List ClearText}

/-- The messages that are pulled are the first ones of all. -/
theorem Takes.eq_take (ht : Takes count entries s reads pulled h t done) :
    pulled = (messagesOf (readAll entries s).1).take count := by
  rw [ht.split, readAll_append, messagesOf_append, ← ht.messages]
  rcases ht.enough with heq | ⟨hlt, hend⟩
  · rw [← heq, List.take_left]
  · rw [hend]
    change _ = (pulled ++ []).take count
    rw [List.append_nil, List.take_of_length_le (Nat.le_of_lt hlt)]

/-- A pull of as many messages as there are envelopes goes through all of them. -/
theorem Takes.eq_of_length_le (ht : Takes count entries s reads pulled h t done)
    (hle : entries.length ≤ count) : done = entries ∧ h.entries = [] := by
  have hend : h.entries = [] := by
    rcases ht.enough with heq | ⟨-, hend⟩
    · have hfew := length_messagesOf_le (readAll done s).1
      rw [← ht.messages, heq, length_readAll] at hfew
      have hsplit := congrArg List.length ht.split
      rw [List.length_append] at hsplit
      exact List.eq_nil_of_length_eq_zero (by omega)
    · exact hend
  refine ⟨?_, hend⟩
  rw [ht.split, hend, List.append_nil]

end Takes

/-- Reading archived envelopes lazily is reading them one after the other. However many messages are
asked for, they are the first of those that come of all envelopes, and what was read for them,
changed and reported is what comes of the envelopes up to the one of the last message. In the end
every envelope was read and is accounted for. -/
theorem reads_in_order (entries : List Archived) (s : Scene) :
    (∀ count, let (pulled, h, t) := take count (ofEntries entries) s
      pulled = (messagesOf (readAll entries s).1).take count ∧
        ∃ done, Takes count entries s [] pulled h t done) ∧
    let (pulled, h, t) := all (ofEntries entries) s
    pulled = messagesOf (readAll entries s).1 ∧ t = (readAll entries s).2 ∧
      h.Reports (readAll entries s).1 ∧ h.entries = [] := by
  have htakes : ∀ count, ∃ done, Takes count entries s [] (take count (ofEntries entries) s).1
      (take count (ofEntries entries) s).2.1 (take count (ofEntries entries) s).2.2 done :=
    fun count => exists_of_take count s (reports_ofEntries entries)
  constructor
  · intro count
    obtain ⟨done, ht⟩ := htakes count
    exact ⟨ht.eq_take, done, ht⟩
  · obtain ⟨done, ht⟩ := htakes entries.length
    obtain ⟨rfl, hend⟩ := ht.eq_of_length_le (Nat.le_refl _)
    exact ⟨ht.messages, ht.scene, ht.reports, hend⟩

end History

end MultiDevice
