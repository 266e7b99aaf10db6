import MultiDevice.Wire.Field

/-!
# Reading undoes writing

A byte string of `2 ^ 64` bytes or more has no length that can be written in full, and what is
written of the length cannot be read. All else that is written is read as it was.

## Main definitions

* `Field.WellFormed`, `Field.Short`: what can be written, and what can be read again

## Main results

* `Wire.read_write`: short fields are read as they were written
* `Wire.eq_of_read_write`: whatever was written, nothing else is read
* `Wire.scalar?_of_filter` and its siblings: a value is found among other fields
-/

namespace MultiDevice

namespace Varint

/-- A byte that is not the last one of a number is marked as such. -/
theorem not_lt_of_continued (n : Nat) : ¬ UInt8.ofNat (n % 128 + 128) < 128 := by
  rw [UInt8.lt_iff_toNat_lt, UInt8.toNat_ofNat']
  simp
  omega

theorem readWithin_writeWithin_of_le (width n : Nat) (rest : Bytes) (h : capacity width ≤ n) :
    readWithin (width + 1) (writeWithin (width + 1) n ++ rest) = none := by
  induction width generalizing n with
  | zero =>
    have hn : 2 ≤ n := h
    unfold writeWithin
    split
    · have hb : UInt8.ofNat n < 128 := by
        rw [UInt8.lt_iff_toNat_lt, UInt8.toNat_ofNat']
        simp
        omega
      have hle : 1 < UInt8.ofNat n := by
        rw [UInt8.lt_iff_toNat_lt, UInt8.toNat_ofNat']
        simp
        omega
      simp [readWithin, hb, hle]
    · simp only [List.cons_append, readWithin, not_lt_of_continued n, if_false]
  | succ width ih =>
    have hpos : 1 ≤ capacity width := by
      clear ih h
      induction width with
      | zero => decide
      | succ width ih => rw [capacity]; omega
    rw [capacity] at h
    unfold writeWithin
    rw [if_neg (by omega)]
    simp only [List.cons_append, readWithin, not_lt_of_continued n, if_false,
      ih (n / 128) (by omega)]

/-- A number of more than 64 bits cannot be read again. -/
theorem read_write_of_le {n : Nat} (rest : Bytes) (h : UInt64.size ≤ n) :
    read (write n ++ rest) = none :=
  readWithin_writeWithin_of_le 9 n rest h

theorem length_write_le (n : Nat) : (write n).length ≤ 10 := by
  have within : ∀ width n, (writeWithin width n).length ≤ width := by
    intro width
    induction width with
    | zero => exact fun _ => Nat.le_refl _
    | succ width ih =>
      intro n
      unfold writeWithin
      split
      · exact Nat.succ_le_succ (Nat.zero_le _)
      · exact Nat.succ_le_succ (ih _)
  exact within 10 n

theorem length_write_pos (n : Nat) : 0 < (write n).length := by
  unfold write writeWithin
  split <;> simp

end Varint

namespace Field

/-- A field that can be written: its number is in range, and so is its value if it is a number. -/
structure WellFormed (f : Field) : Prop where
  number_pos : 1 ≤ f.number
  number_lt : 8 * f.number + 2 < UInt32.size
  known : f.value ≠ .foreign
  value_lt : ∀ n, f.value = .number n → n < UInt64.size

/-- A field that can be read again: a byte string has a length of 64 bits. -/
def Short (f : Field) : Prop := ∀ bs, f.value = .bytes bs → bs.length < UInt64.size

end Field

namespace Wire

variable {f : Field} {fs : List Field}

theorem splitAt?_append (bs rest : Bytes) : splitAt? bs.length (bs ++ rest) = some (bs, rest) := by
  induction bs with
  | nil => rfl
  | cons b bs ih => simp only [List.length_cons, List.cons_append, splitAt?, ih]

theorem readKey_write {number type : Nat} (rest : Bytes) (hpos : 1 ≤ number) (htype : type < 8)
    (hlt : 8 * number + type < UInt32.size) :
    readKey (Varint.write (8 * number + type) ++ rest) = some (number, type, rest) := by
  have h64 : 8 * number + type < UInt64.size := Nat.lt_trans hlt (by decide)
  have hdiv : (8 * number + type) / 8 = number := by omega
  have hmod : (8 * number + type) % 8 = type := by omega
  simp only [readKey, Varint.read_write _ rest h64, hdiv, hmod]
  rw [if_pos ⟨by omega, hlt⟩]

/-- The field at the front is read as it was written, if it is short. -/
theorem read_writeField (depth : Nat) (hf : f.WellFormed) (rest : Bytes) :
    ∃ type bs, readKey (writeField f ++ rest) = some (f.number, type, bs) ∧
      (f.Short → readValue (depth + 1) f.number type bs = some (f.value, rest)) ∧
      (¬ f.Short → readValue (depth + 1) f.number type bs = none) := by
  obtain ⟨number, value⟩ := f
  have hpos : 1 ≤ number := hf.number_pos
  have hlt : 8 * number + 2 < UInt32.size := hf.number_lt
  cases value with
  | number n =>
    have hn : n < UInt64.size := hf.value_lt n rfl
    refine ⟨0, Varint.write n ++ rest, ?_, fun _ => ?_, fun h => absurd (fun _ h => nomatch h) h⟩
    · simp only [writeField, List.append_assoc]
      exact readKey_write _ hpos (by decide : 0 < 8) (by omega)
    · simp only [readValue, Varint.read_write n rest hn, Option.map_some]
  | bytes bs =>
    refine ⟨2, Varint.write bs.length ++ (bs ++ rest), ?_, fun h => ?_, fun h => ?_⟩
    · simp only [writeField, List.append_assoc]
      exact readKey_write _ hpos (by decide) hlt
    · simp only [readValue, Varint.read_write _ (bs ++ rest) (h bs rfl), Option.bind_some,
        splitAt?_append, Option.map_some]
    · have hle : UInt64.size ≤ bs.length := by
        refine Nat.le_of_not_lt fun hlt => h ?_
        rintro bs' ⟨⟩
        exact hlt
      simp only [readValue, Varint.read_write_of_le (bs ++ rest) hle, Option.bind_none]
  | foreign => exact absurd rfl hf.known

theorem readWithin_of_readKey {depth fuel number type : Nat} {bs rest : Bytes}
    (h : readKey bs = some (number, type, rest)) :
    readWithin depth (fuel + 1) bs = (readValue depth number type rest).bind fun p =>
      (readWithin depth fuel p.2).map (⟨number, p.1⟩ :: ·) := by
  cases bs with
  | nil => cases h
  | cons b bs =>
    simp only [readWithin, h]
    cases readValue depth number type rest <;> rfl

theorem length_le_length_write (h : ∀ f ∈ fs, f.WellFormed) : fs.length ≤ (write fs).length := by
  induction fs with
  | nil => exact Nat.le_refl _
  | cons f fs ih =>
    have hfs := ih fun f hf => h f (List.mem_cons_of_mem _ hf)
    have hpos : 0 < (writeField f).length := by
      obtain ⟨number, value⟩ := f
      have hw := h _ List.mem_cons_self
      cases value with
      | number n =>
        have := Varint.length_write_pos (8 * number)
        simp only [writeField, List.length_append]
        omega
      | bytes bs =>
        have := Varint.length_write_pos (8 * number + 2)
        simp only [writeField, List.length_append]
        omega
      | foreign => exact absurd rfl hw.known
    simp only [write, List.flatMap_cons, List.length_append, List.length_cons] at hfs ⊢
    omega

/-- Short fields are read as they were written. -/
theorem read_write (depth : Nat) (hw : ∀ f ∈ fs, f.WellFormed) (hs : ∀ f ∈ fs, f.Short) :
    read (depth + 1) (write fs) = some fs := by
  -- Any fuel will do that is at least the number of fields.
  have within : ∀ fuel, fs.length ≤ fuel → readWithin (depth + 1) fuel (write fs) = some fs := by
    induction fs with
    | nil =>
      intro fuel _
      cases fuel <;> rfl
    | cons f fs ih =>
      intro fuel hfuel
      obtain ⟨fuel, rfl⟩ := Nat.exists_eq_succ_of_ne_zero (n := fuel) (by
        rw [List.length_cons] at hfuel
        omega)
      obtain ⟨type, bs, hk, hv, -⟩ := read_writeField depth (hw f List.mem_cons_self) (write fs)
      have hrest := ih (fun f hf => hw f (List.mem_cons_of_mem _ hf))
        (fun f hf => hs f (List.mem_cons_of_mem _ hf)) fuel (Nat.le_of_succ_le_succ hfuel)
      change readWithin (depth + 1) (fuel + 1) (writeField f ++ write fs) = _
      rw [readWithin_of_readKey hk, hv (hs f List.mem_cons_self), Option.bind_some, hrest]
      rfl
  exact within _ (length_le_length_write hw)

/-- Whatever was written, nothing else is read. -/
theorem eq_of_read_write (depth : Nat) {fs' : List Field} (hw : ∀ f ∈ fs, f.WellFormed)
    (h : read (depth + 1) (write fs) = some fs') : fs' = fs ∧ ∀ f ∈ fs, f.Short := by
  have within : ∀ fuel fs', fs.length ≤ fuel →
      readWithin (depth + 1) fuel (write fs) = some fs' → fs' = fs ∧ ∀ f ∈ fs, f.Short := by
    clear h
    induction fs with
    | nil =>
      intro fuel fs' _ h
      cases fuel <;> cases h <;> exact ⟨rfl, fun f hf => absurd hf List.not_mem_nil⟩
    | cons f fs ih =>
      intro fuel fs' hfuel h
      obtain ⟨fuel, rfl⟩ := Nat.exists_eq_succ_of_ne_zero (n := fuel) (by
        rw [List.length_cons] at hfuel
        omega)
      obtain ⟨type, bs, hk, hv, hn⟩ := read_writeField depth (hw f List.mem_cons_self) (write fs)
      change readWithin (depth + 1) (fuel + 1) (writeField f ++ write fs) = _ at h
      rw [readWithin_of_readKey hk] at h
      by_cases hs : f.Short
      · rw [hv hs, Option.bind_some] at h
        obtain ⟨fs'', hr, rfl⟩ := Option.map_eq_some_iff.mp h
        obtain ⟨rfl, hshort⟩ := ih (fun f hf => hw f (List.mem_cons_of_mem _ hf)) fuel fs''
          (Nat.le_of_succ_le_succ hfuel) hr
        exact ⟨rfl, List.forall_mem_cons.mpr ⟨hs, hshort⟩⟩
      · rw [hn hs] at h
        cases h
  exact within _ fs' (length_le_length_write hw) h

/-! ## What single values are written as -/

/-- A field of a number that is in range. -/
theorem wellFormed_number {number n : Nat} (hpos : 1 ≤ number) (hlt : number < 16)
    (hn : n < UInt64.size) : (⟨number, .number n⟩ : Field).WellFormed :=
  ⟨hpos, by change 8 * number + 2 < 4294967296; omega, (nomatch ·), fun m h => by
    cases h
    exact hn⟩

theorem wellFormed_bytes {number : Nat} (bs : Bytes) (hpos : 1 ≤ number) (hlt : number < 16) :
    (⟨number, .bytes bs⟩ : Field).WellFormed :=
  ⟨hpos, by change 8 * number + 2 < 4294967296; omega, (nomatch ·), (nomatch ·, ·)⟩

theorem short_number (number n : Nat) : (⟨number, .number n⟩ : Field).Short :=
  fun _ h => nomatch h

theorem short_bytes (number : Nat) {bs : Bytes} (h : bs.length < UInt64.size) :
    (⟨number, .bytes bs⟩ : Field).Short := fun bs' h' => by cases h'; exact h

section Members

variable {number : Nat}

theorem eq_of_mem_scalar {n : UInt32} (hf : f ∈ scalar number n) :
    f = ⟨number, .number n.toNat⟩ := by
  unfold scalar at hf
  split at hf
  · cases hf
  · exact List.mem_singleton.mp hf

theorem exists_of_mem_optionalScalar {n : Option UInt32} (hf : f ∈ optionalScalar number n) :
    ∃ m, n = some m ∧ f = ⟨number, .number m.toNat⟩ := by
  cases n with
  | none => cases hf
  | some m => exact ⟨m, rfl, List.mem_singleton.mp hf⟩

theorem eq_of_mem_blob {bs : Bytes} (hf : f ∈ blob number bs) : f = ⟨number, .bytes bs⟩ := by
  unfold blob at hf
  split at hf
  · cases hf
  · exact List.mem_singleton.mp hf

theorem exists_of_mem_optionalBlob {bs : Option Bytes} (hf : f ∈ optionalBlob number bs) :
    ∃ b, bs = some b ∧ f = ⟨number, .bytes b⟩ := by
  cases bs with
  | none => cases hf
  | some b => exact ⟨b, rfl, List.mem_singleton.mp hf⟩

theorem exists_of_mem_optionalMessage {m : Option (List Field)}
    (hf : f ∈ optionalMessage number m) : ∃ fs, m = some fs ∧ f = message number fs := by
  cases m with
  | none => cases hf
  | some fs => exact ⟨fs, rfl, List.mem_singleton.mp hf⟩

end Members

section Values

variable {number : Nat} (hpos : 1 ≤ number) (hlt : number < 16)

include hpos hlt

theorem wellFormed_of_mem_scalar {n : UInt32} (hf : f ∈ scalar number n) : f.WellFormed := by
  rw [eq_of_mem_scalar hf]
  exact wellFormed_number hpos hlt (Nat.lt_trans n.toNat_lt (by decide))

theorem wellFormed_of_mem_optionalScalar {n : Option UInt32} (hf : f ∈ optionalScalar number n) :
    f.WellFormed := by
  obtain ⟨m, -, rfl⟩ := exists_of_mem_optionalScalar hf
  exact wellFormed_number hpos hlt (Nat.lt_trans m.toNat_lt (by decide))

theorem wellFormed_of_mem_blob {bs : Bytes} (hf : f ∈ blob number bs) : f.WellFormed := by
  rw [eq_of_mem_blob hf]
  exact wellFormed_bytes bs hpos hlt

theorem wellFormed_of_mem_optionalBlob {bs : Option Bytes} (hf : f ∈ optionalBlob number bs) :
    f.WellFormed := by
  obtain ⟨b, -, rfl⟩ := exists_of_mem_optionalBlob hf
  exact wellFormed_bytes b hpos hlt

theorem wellFormed_of_mem_optionalMessage {m : Option (List Field)}
    (hf : f ∈ optionalMessage number m) : f.WellFormed := by
  obtain ⟨fs, -, rfl⟩ := exists_of_mem_optionalMessage hf
  exact wellFormed_bytes _ hpos hlt

end Values

theorem short_of_mem_scalar {number : Nat} {n : UInt32} (hf : f ∈ scalar number n) : f.Short := by
  rw [eq_of_mem_scalar hf]
  exact short_number _ _

theorem short_of_mem_optionalScalar {number : Nat} {n : Option UInt32}
    (hf : f ∈ optionalScalar number n) : f.Short := by
  obtain ⟨m, -, rfl⟩ := exists_of_mem_optionalScalar hf
  exact short_number _ _

theorem short_of_mem_blob {number : Nat} {bs : Bytes} (h : bs.length < UInt64.size)
    (hf : f ∈ blob number bs) : f.Short := by
  rw [eq_of_mem_blob hf]
  exact short_bytes _ h

theorem short_of_mem_optionalBlob {number : Nat} {bs : Option Bytes}
    (h : ∀ b, bs = some b → b.length < UInt64.size) (hf : f ∈ optionalBlob number bs) :
    f.Short := by
  obtain ⟨b, hb, rfl⟩ := exists_of_mem_optionalBlob hf
  exact short_bytes _ (h b hb)

theorem short_of_mem_optionalMessage {number : Nat} {m : Option (List Field)}
    (h : ∀ fs, m = some fs → (write fs).length < UInt64.size)
    (hf : f ∈ optionalMessage number m) : f.Short := by
  obtain ⟨fs, hfs, rfl⟩ := exists_of_mem_optionalMessage hf
  exact short_bytes _ (h fs hfs)

/-! ## How long values are -/

theorem length_write_append (fs fs' : List Field) :
    (write (fs ++ fs')).length = (write fs).length + (write fs').length := by
  rw [write, List.flatMap_append, List.length_append]
  rfl

/-- The order of fields makes no difference to how many bytes they take. -/
theorem length_write_of_perm {fs fs' : List Field} (h : fs.Perm fs') :
    (write fs).length = (write fs').length :=
  (h.flatMap_right writeField).length_eq

theorem length_writeField_le (f : Field) :
    (writeField f).length ≤ 20 + (match f.value with | .bytes bs => bs.length | _ => 0) := by
  obtain ⟨number, value⟩ := f
  cases value with
  | number n =>
    have h := Varint.length_write_le (8 * number)
    have h' := Varint.length_write_le n
    simp only [writeField, List.length_append]
    omega
  | bytes bs =>
    have h := Varint.length_write_le (8 * number + 2)
    have h' := Varint.length_write_le bs.length
    simp only [writeField, List.length_append]
    omega
  | foreign => exact Nat.zero_le _

theorem length_write_scalar_le (number : Nat) (n : UInt32) :
    (write (scalar number n)).length ≤ 20 := by
  unfold scalar
  split
  · exact Nat.zero_le _
  · have h := length_writeField_le ⟨number, .number n.toNat⟩
    simpa [write] using h

theorem length_write_optionalScalar_le (number : Nat) (n : Option UInt32) :
    (write (optionalScalar number n)).length ≤ 20 := by
  cases n with
  | none => exact Nat.zero_le _
  | some n =>
    have h := length_writeField_le ⟨number, .number n.toNat⟩
    simpa [write, optionalScalar] using h

theorem length_write_blob_le (number : Nat) (bs : Bytes) :
    (write (blob number bs)).length ≤ 20 + bs.length := by
  unfold blob
  split
  · exact Nat.zero_le _
  · have h := length_writeField_le ⟨number, .bytes bs⟩
    simpa [write] using h

theorem length_write_bytes_le (number : Nat) (bs : Bytes) :
    (write [⟨number, .bytes bs⟩]).length ≤ 20 + bs.length := by
  have h := length_writeField_le ⟨number, .bytes bs⟩
  simpa [write] using h

theorem length_write_optionalBlob_le (number : Nat) {bs : Option Bytes} {k : Nat}
    (h : ∀ b, bs = some b → b.length ≤ k) : (write (optionalBlob number bs)).length ≤ 20 + k := by
  cases bs with
  | none => exact Nat.zero_le _
  | some b => exact Nat.le_trans (length_write_bytes_le number b) (Nat.add_le_add_left (h b rfl) 20)

theorem length_write_optionalMessage_le (number : Nat) {m : Option (List Field)} {k : Nat}
    (h : ∀ fs, m = some fs → (write fs).length ≤ k) :
    (write (optionalMessage number m)).length ≤ 20 + k := by
  cases m with
  | none => exact Nat.zero_le _
  | some fs =>
    exact Nat.le_trans (length_write_bytes_le number (write fs)) (Nat.add_le_add_left (h fs rfl) 20)

theorem length_write_messages_le {α : Type} (number : Nat) (fields : α → List Field) {as : List α}
    {k : Nat} (h : ∀ a ∈ as, (write (fields a)).length ≤ k) :
    (write (as.map fun a => message number (fields a))).length ≤ as.length * (20 + k) := by
  induction as with
  | nil => exact Nat.zero_le _
  | cons a as ih =>
    have ha := length_write_bytes_le number (write (fields a))
    have hk := h a List.mem_cons_self
    have has := ih fun b hb => h b (List.mem_cons_of_mem a hb)
    rw [List.map_cons, ← List.singleton_append, length_write_append, List.length_cons, Nat.succ_mul]
    change (write [message number (fields a)]).length ≤ _ at ha
    omega

/-- A field is no longer than the fields it is among. -/
theorem short_of_length_write {fs : List Field} (h : (write fs).length < UInt64.size)
    (hf : f ∈ fs) : f.Short := by
  intro bs hv
  obtain ⟨front, back, rfl⟩ := List.append_of_mem hf
  have hle : bs.length ≤ (writeField f).length := by
    simp only [writeField, hv, List.length_append]
    omega
  rw [length_write_append, show f :: back = [f] ++ back from rfl, length_write_append] at h
  have hone : (write [f]).length = (writeField f).length := by simp [write]
  omega

/-! ## Finding a value among the fields -/

section Filter

variable (number k : Nat)

@[simp] theorem filter_scalar (n : UInt32) :
    (scalar k n).filter (·.number == number) = if k = number then scalar k n else [] := by
  unfold scalar
  by_cases hk : k = number <;> by_cases hn : n = 0 <;> simp [hk, hn]

@[simp] theorem filter_optionalScalar (n : Option UInt32) :
    (optionalScalar k n).filter (·.number == number) =
      if k = number then optionalScalar k n else [] := by
  cases n <;> by_cases hk : k = number <;> simp [optionalScalar, hk]

@[simp] theorem filter_blob (bs : Bytes) :
    (blob k bs).filter (·.number == number) = if k = number then blob k bs else [] := by
  unfold blob
  by_cases hk : k = number <;> by_cases hn : bs = [] <;> simp [hk, hn]

@[simp] theorem filter_optionalBlob (bs : Option Bytes) :
    (optionalBlob k bs).filter (·.number == number) =
      if k = number then optionalBlob k bs else [] := by
  cases bs <;> by_cases hk : k = number <;> simp [optionalBlob, hk]

@[simp] theorem filter_optionalMessage (m : Option (List Field)) :
    (optionalMessage k m).filter (·.number == number) =
      if k = number then optionalMessage k m else [] := by
  cases m <;> by_cases hk : k = number <;> simp [optionalMessage, message, hk]

theorem filter_messages (ms : List (List Field)) :
    (ms.map (message k)).filter (·.number == number) =
      if k = number then ms.map (message k) else [] := by
  by_cases hk : k = number
  · rw [if_pos hk, List.filter_eq_self]
    intro f hf
    obtain ⟨m, -, rfl⟩ := List.mem_map.mp hf
    exact beq_iff_eq.mpr hk
  · rw [if_neg hk, List.filter_eq_nil_iff]
    intro f hf
    obtain ⟨m, -, rfl⟩ := List.mem_map.mp hf
    exact fun h => hk (beq_iff_eq.mp h)

end Filter

variable {number depth : Nat}

theorem optionalScalar?_of_filter {n : Option UInt32}
    (h : fs.filter (·.number == number) = optionalScalar number n) :
    optionalScalar? fs number = some n := by
  unfold optionalScalar? numbers?
  rw [h]
  cases n <;> simp [optionalScalar]

theorem scalar?_of_filter {n : UInt32} (h : fs.filter (·.number == number) = scalar number n) :
    scalar? fs number = some n := by
  unfold scalar? optionalScalar? numbers?
  rw [h]
  unfold scalar
  split
  · next hn => simp [hn]
  · simp

theorem optionalBlob?_of_filter {bs : Option Bytes}
    (h : fs.filter (·.number == number) = optionalBlob number bs) :
    optionalBlob? fs number = some bs := by
  unfold optionalBlob? byteStrings?
  rw [h]
  cases bs <;> simp [optionalBlob]

theorem blob?_of_filter {bs : Bytes} (h : fs.filter (·.number == number) = blob number bs) :
    blob? fs number = some bs := by
  unfold blob? optionalBlob? byteStrings?
  rw [h]
  unfold blob
  split
  · next hn => simp [hn]
  · simp

theorem messages?_of_filter {ms : List (List Field)}
    (h : fs.filter (·.number == number) = ms.map (message number))
    (hread : ∀ m ∈ ms, read (depth - 1) (write m) = some m) :
    messages? depth fs number = some ms := by
  have hbytes : byteStrings? fs number = some (ms.map write) := by
    unfold byteStrings?
    rw [h]
    clear h hread
    induction ms with
    | nil => rfl
    | cons m ms ih => simp only [List.map_cons, List.mapM_cons, message, ih]; rfl
  unfold messages?
  rw [hbytes, Option.bind_some]
  clear h hbytes
  induction ms with
  | nil => rfl
  | cons m ms ih =>
    simp only [List.map_cons, List.mapM_cons, hread m List.mem_cons_self,
      ih fun m hm => hread m (List.mem_cons_of_mem _ hm)]
    rfl

theorem message?_of_filter {m : Option (List Field)}
    (h : fs.filter (·.number == number) = optionalMessage number m)
    (hread : ∀ inner, m = some inner → read (depth - 1) (write inner) = some inner) :
    message? depth fs number = some m := by
  have hms : messages? depth fs number = some m.toList := by
    apply messages?_of_filter
    · rw [h]
      cases m <;> rfl
    · intro inner hm
      exact hread inner (Option.mem_toList.mp hm)
  unfold message?
  rw [hms]
  cases m <;> simp

end Wire

end MultiDevice
