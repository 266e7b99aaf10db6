import Std.Data.ExtTreeMap

/-!
# Entries of a table

Sessions, pre-keys and published bundles are kept in tables. What a table holds after a change is
what was put in, or what it held before.

## Main results

* `Entries.of_insert`: an entry is the one that was put in, or was there under another key
* `Entries.of_erase`: an entry that is left was there
* `Entries.insert_of_ne`, `Entries.erase_insert`: the entries under other keys stay
* `Entries.mem_insert_iff`, `Entries.mem_erase_iff`: which keys have an entry then
* `Entries.getElem?_filter_iff`, `Entries.mem_filter_iff`, `Entries.getElem?_foldl_erase`: what is
  left when some keys are dropped
-/

namespace MultiDevice.Entries

variable {α β : Type} {cmp : α → α → Ordering} [Std.TransCmp cmp] {table : Std.ExtTreeMap α β cmp}
  {k k' : α} {v v' : β}

/-- A key with an entry is in the table. -/
theorem mem_of_getElem? (h : table[k]? = some v) : k ∈ table :=
  Std.ExtTreeMap.mem_iff_isSome_getElem?.mpr (Option.isSome_iff_exists.mpr ⟨v, h⟩)

/-- A key in the table has an entry. -/
theorem exists_of_mem (h : k ∈ table) : ∃ v, table[k]? = some v :=
  Option.isSome_iff_exists.mp (Std.ExtTreeMap.mem_iff_isSome_getElem?.mp h)

/-- An entry that is left after one was taken out was there. -/
theorem of_erase (h : (table.erase k)[k']? = some v) : table[k']? = some v := by
  rw [Std.ExtTreeMap.getElem?_erase] at h
  split at h
  · cases h
  · exact h

variable [Std.LawfulEqCmp cmp]

/-- An entry is the one that was put in, or was there under another key. -/
theorem of_insert (h : (table.insert k v)[k']? = some v') :
    (k' = k ∧ v' = v) ∨ (k' ≠ k ∧ table[k']? = some v') := by
  rw [Std.ExtTreeMap.getElem?_insert] at h
  split at h
  · next heq =>
    cases h
    exact .inl ⟨(Std.LawfulEqCmp.compare_eq_iff_eq.mp heq).symm, rfl⟩
  · next hne =>
    exact .inr ⟨fun heq => hne (Std.LawfulEqCmp.compare_eq_iff_eq.mpr heq.symm), h⟩

/-- The entries under other keys stay. -/
theorem insert_of_ne (hne : k' ≠ k) : (table.insert k v)[k']? = table[k']? := by
  rw [Std.ExtTreeMap.getElem?_insert, if_neg]
  exact fun heq => hne (Std.LawfulEqCmp.compare_eq_iff_eq.mp heq).symm

/-- Taking an entry out undoes that one was put in under its key. -/
theorem erase_insert : (table.insert k v).erase k = table.erase k := by
  apply Std.ExtTreeMap.ext_getElem?
  intro other
  rw [Std.ExtTreeMap.getElem?_erase, Std.ExtTreeMap.getElem?_erase, Std.ExtTreeMap.getElem?_insert]
  split <;> rfl

theorem mem_insert_iff : k' ∈ table.insert k v ↔ k' = k ∨ k' ∈ table := by
  rw [Std.ExtTreeMap.mem_insert, Std.LawfulEqCmp.compare_eq_iff_eq, eq_comm]

theorem mem_erase_iff : k' ∈ table.erase k ↔ k' ≠ k ∧ k' ∈ table := by
  rw [Std.ExtTreeMap.mem_erase, Ne, Std.LawfulEqCmp.compare_eq_iff_eq, eq_comm]

/-- Filtering by the keys leaves the entries under those that pass the test. -/
theorem getElem?_filter_iff {test : α → Bool} :
    (table.filter fun k _ => test k)[k]? = some v ↔ table[k]? = some v ∧ test k = true := by
  rw [Std.ExtTreeMap.getElem?_filter', Option.filter_eq_some_iff]

theorem mem_filter_iff {test : α → Bool} :
    k ∈ (table.filter fun k _ => test k) ↔ k ∈ table ∧ test k = true := by
  constructor
  · intro h
    obtain ⟨v, hv⟩ := exists_of_mem h
    obtain ⟨hv, htest⟩ := getElem?_filter_iff.mp hv
    exact ⟨mem_of_getElem? hv, htest⟩
  · rintro ⟨h, htest⟩
    obtain ⟨v, hv⟩ := exists_of_mem h
    exact mem_of_getElem? (getElem?_filter_iff.mpr ⟨hv, htest⟩)

/-- What is left after several keys were taken out one after the other. -/
theorem getElem?_foldl_erase [DecidableEq α] (ks : List α) :
    (ks.foldl (fun table k => table.erase k) table)[k]? = if k ∈ ks then none else table[k]? := by
  induction ks generalizing table with
  | nil => simp
  | cons k' ks ih =>
    rw [List.foldl_cons, ih, Std.ExtTreeMap.getElem?_erase]
    simp only [Std.LawfulEqCmp.compare_eq_iff_eq, List.mem_cons, eq_comm (a := k)]
    by_cases hmem : k ∈ ks <;> by_cases heq : k' = k <;> simp [hmem, heq]

end MultiDevice.Entries
