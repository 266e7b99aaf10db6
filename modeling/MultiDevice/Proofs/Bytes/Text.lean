import MultiDevice.Bytes.Text
import Mathlib.Logic.Function.Defs
import Mathlib.Data.Nat.Basic

/-!
# Written forms tell byte strings apart

A byte string can be read back from its hexadecimal form, and from its form in base 64 once its
length is known: every digit stands for one number only, and the digits of a byte, or of a group of
bytes, make up the bytes again.

## Main results

* `hex_injective`: the hexadecimal form tells byte strings apart
* `base64_inj`: the form in base 64 tells byte strings of one length apart
-/

namespace MultiDevice.Bytes

theorem hexDigit_inj : ∀ m < 16, ∀ n < 16, hexDigit m = hexDigit n → m = n := by decide

theorem hexDigit_ne_blank : ∀ n < 16, hexDigit n ≠ ' ' := by decide

theorem base64Digit_inj : ∀ m < 64, ∀ n < 64, base64Digit m = base64Digit n → m = n := by
  decide +kernel

/-- Two hexadecimal digits make up a byte. -/
theorem eq_of_hexDigit {a b : UInt8} (hhigh : hexDigit (a.toNat / 16) = hexDigit (b.toNat / 16))
    (hlow : hexDigit (a.toNat % 16) = hexDigit (b.toNat % 16)) : a = b := by
  have ha := a.toNat_lt
  have hb := b.toNat_lt
  have hquotient := hexDigit_inj _ (by omega) _ (by omega) hhigh
  have hremainder := hexDigit_inj _ (by omega) _ (by omega) hlow
  apply UInt8.toNat_inj.mp
  omega

theorem hex_injective : Function.Injective hex := by
  intro bs bs' h
  replace h := String.ofList_injective h
  induction bs generalizing bs' with
  | nil =>
    cases bs' with
    | nil => rfl
    | cons b' bs' => cases h
  | cons b bs ih =>
    cases bs' with
    | nil => cases h
    | cons b' bs' =>
      simp only [List.flatMap_cons, List.cons_append, List.nil_append] at h
      obtain ⟨hhigh, h⟩ := List.cons.inj h
      obtain ⟨hlow, h⟩ := List.cons.inj h
      rw [eq_of_hexDigit hhigh hlow, ih h]

/-- No blank stands among hexadecimal digits. -/
theorem blank_notMem_hex (bs : Bytes) : ' ' ∉ (hex bs).toList := by
  rw [hex, String.toList_ofList, List.mem_flatMap]
  rintro ⟨b, -, hb⟩
  have hlt := b.toNat_lt
  rcases List.mem_cons.mp hb with hb | hb
  · exact hexDigit_ne_blank _ (by omega) hb.symm
  · exact hexDigit_ne_blank _ (by omega) (List.mem_singleton.mp hb).symm

/-- Four digits make up a number of twenty-four bits. -/
theorem eq_of_base64Digit {m n : Nat} (hm : m < 16777216) (hn : n < 16777216)
    (h₁ : base64Digit (m / 262144) = base64Digit (n / 262144))
    (h₂ : base64Digit (m / 4096 % 64) = base64Digit (n / 4096 % 64))
    (h₃ : base64Digit (m / 64 % 64) = base64Digit (n / 64 % 64))
    (h₄ : base64Digit (m % 64) = base64Digit (n % 64)) : m = n := by
  have hfirst := base64Digit_inj _ (by omega) _ (by omega) h₁
  have hsecond := base64Digit_inj _ (by omega) _ (by omega) h₂
  have hthird := base64Digit_inj _ (by omega) _ (by omega) h₃
  have hfourth := base64Digit_inj _ (by omega) _ (by omega) h₄
  omega

/-- Groups of three bytes are four digits each, so strings of one length are compared group by
group. -/
theorem base64Chars_inj {bs bs' : Bytes} (hl : bs.length = bs'.length)
    (h : base64Chars bs = base64Chars bs') : bs = bs' := by
  induction bs using base64Chars.induct generalizing bs' with
  | case1 => exact (List.length_eq_zero_iff.mp hl.symm).symm
  | case2 a =>
    obtain ⟨a', rfl⟩ := List.length_eq_one_iff.mp hl.symm
    have ha := a.toNat_lt
    have ha' := a'.toNat_lt
    simp only [base64Chars, List.cons.injEq] at h
    have hfirst := base64Digit_inj _ (by omega) _ (by omega) h.1
    have hsecond := base64Digit_inj _ (by omega) _ (by omega) h.2.1
    rw [UInt8.toNat_inj.mp (show a.toNat = a'.toNat by omega)]
  | case3 a b =>
    match bs', hl with
    | [a', b'], _ =>
      have ha := a.toNat_lt
      have hb := b.toNat_lt
      have ha' := a'.toNat_lt
      have hb' := b'.toNat_lt
      simp only [base64Chars, List.cons.injEq] at h
      have hfirst := base64Digit_inj _ (by omega) _ (by omega) h.1
      have hsecond := base64Digit_inj _ (by omega) _ (by omega) h.2.1
      have hthird := base64Digit_inj _ (by omega) _ (by omega) h.2.2.1
      rw [UInt8.toNat_inj.mp (show a.toNat = a'.toNat by omega),
        UInt8.toNat_inj.mp (show b.toNat = b'.toNat by omega)]
  | case4 a b c rest ih =>
    match bs', hl with
    | a' :: b' :: c' :: rest', hl =>
      have ha := a.toNat_lt
      have hb := b.toNat_lt
      have hc := c.toNat_lt
      have ha' := a'.toNat_lt
      have hb' := b'.toNat_lt
      have hc' := c'.toNat_lt
      simp only [base64Chars, List.cons.injEq] at h
      obtain ⟨h₁, h₂, h₃, h₄, hrest⟩ := h
      have hn := eq_of_base64Digit (by omega) (by omega) h₁ h₂ h₃ h₄
      rw [ih (by simpa using hl) hrest, UInt8.toNat_inj.mp (show a.toNat = a'.toNat by omega),
        UInt8.toNat_inj.mp (show b.toNat = b'.toNat by omega),
        UInt8.toNat_inj.mp (show c.toNat = c'.toNat by omega)]

theorem base64_inj {bs bs' : Bytes} (hl : bs.length = bs'.length) :
    base64 bs = base64 bs' ↔ bs = bs' := by
  refine ⟨fun h => base64Chars_inj hl (String.ofList_injective h), congrArg _⟩

end MultiDevice.Bytes
