import Mathlib.Data.List.Basic
import Mathlib.Data.Nat.Log
import MovAsm.Text.Numeral

/-!
# Hexadecimal Digits

A hexadecimal digit keeps its meaning in upper case, and stands for a number below sixteen. So one
or two of them write a byte. A number that is written in digits is read back, in either case and
with any number of zeros in front.

## Main results

* `isHexit_toUpper`, `toUpper_toUpper_of_isHexit`: digits in upper case.
* `exists_byte_of_digits`: one or two digits write a byte.
* `hexValue_hexits`: a numeral stands for the number that it was made of.
* `readHex?_padLeft`: digits are read as the number that they stand for, whatever their width.
* `length_hexits`: the number of digits of a number.
* `hexValue_eq_iff`: digits that write the same byte differ in a leading zero at most.
-/

namespace MovAsm.Text

/-- The characters that `isHexit` accepts, as a list. -/
theorem mem_of_isHexit {c : Char} (h : isHexit c = true) : c ∈ "0123456789ABCDEFabcdef".toList := by
  have hascii : c.toNat < 0x80 := by
    simp only [isHexit, Char.isDigit, Bool.or_eq_true, Bool.and_eq_true, decide_eq_true_eq,
      Char.le_def, UInt32.le_iff_toNat_le] at h
    have hcode : c.val.toNat = c.toNat := rfl
    have hbounds : '9'.val.toNat = 57 ∧ 'f'.val.toNat = 102 ∧ 'F'.val.toNat = 70 := by decide
    omega
  have hlist : ∀ code < 0x80, isHexit (Char.ofNat code) = true →
      Char.ofNat code ∈ "0123456789ABCDEFabcdef".toList := by decide +kernel
  rw [← Char.ofNat_toNat c] at h ⊢
  exact hlist c.toNat hascii h

/-- A digit in upper case is a digit. -/
theorem isHexit_toUpper {c : Char} (h : isHexit c = true) : isHexit c.toUpper = true := by
  have hlist : ("0123456789ABCDEFabcdef".toList.all fun d => isHexit d.toUpper) = true := by decide
  exact List.all_eq_true.mp hlist c (mem_of_isHexit h)

/-- On hexadecimal digits, `Char.toUpper` is idempotent. -/
theorem toUpper_toUpper_of_isHexit {c : Char} (h : isHexit c = true) :
    c.toUpper.toUpper = c.toUpper := by
  have hlist : ("0123456789ABCDEFabcdef".toList.all fun d => d.toUpper.toUpper = d.toUpper) =
      true := by decide
  exact of_decide_eq_true (List.all_eq_true.mp hlist c (mem_of_isHexit h))

/-- The `hexitValue` of a digit is less than 16. -/
theorem hexitValue_lt {c : Char} (h : isHexit c = true) : hexitValue c < 16 := by
  have hlist : ("0123456789ABCDEFabcdef".toList.all fun d => hexitValue d < 16) = true := by decide
  exact of_decide_eq_true (List.all_eq_true.mp hlist c (mem_of_isHexit h))

/-- One or two digits are read by `readHex?` as a number below `0x100`. -/
theorem exists_byte_of_digits {digits : List Char} (hlength : digits.length = 1 ∨ digits.length = 2)
    (hdigits : ∀ c ∈ digits, isHexit c = true) :
    ∃ value, readHex? (String.ofList digits) = some value ∧ value < 0x100 := by
  have hne : digits ≠ [] := by
    rintro rfl
    simp at hlength
  have hread : readHex? (String.ofList digits) =
      some (digits.foldl (fun value c => value * 16 + hexitValue c) 0) := by
    simp only [readHex?, String.toList_ofList]
    rw [if_neg (by simpa [hne] using hdigits)]
  refine ⟨_, hread, ?_⟩
  rcases hlength with hlength | hlength
  · obtain ⟨high, rfl⟩ := List.length_eq_one_iff.mp hlength
    have hhigh := hexitValue_lt (hdigits high (by simp))
    simp only [List.foldl_cons, List.foldl_nil]
    omega
  · obtain ⟨high, rest, rfl⟩ := List.exists_cons_of_ne_nil hne
    obtain ⟨low, rfl⟩ := List.length_eq_one_iff.mp (Nat.succ.inj hlength)
    have hhigh := hexitValue_lt (hdigits high (by simp))
    have hlow := hexitValue_lt (hdigits low (by simp))
    simp only [List.foldl_cons, List.foldl_nil]
    omega

/-! ### Numerals that are read back -/

/-- The number that hexadecimal digits stand for, the most significant first: the fold inside
`readHex?`. -/
def hexValue (digits : List Char) : Nat :=
  digits.foldl (fun value c => value * 16 + hexitValue c) 0

/-- The answer of `readHex?` on one digit or more is their `hexValue`. -/
theorem readHex?_ofList {digits : List Char} (hne : digits ≠ [])
    (hdigits : ∀ c ∈ digits, isHexit c = true) :
    readHex? (String.ofList digits) = some (hexValue digits) := by
  simp only [readHex?, String.toList_ofList]
  rw [if_neg (by simpa [hne] using hdigits), hexValue]

/-- The `hexValue` with one more digit at the end. -/
theorem hexValue_append_singleton (digits : List Char) (c : Char) :
    hexValue (digits ++ [c]) = hexValue digits * 16 + hexitValue c := by
  simp [hexValue]

/-- Zeros in front do not change the `hexValue`. -/
theorem hexValue_padLeft (width : Nat) (digits : List Char) :
    hexValue (padLeft '0' width digits) = hexValue digits := by
  have hzeros (count : Nat) : hexValue (List.replicate count '0') = 0 := by
    induction count with
    | zero => rfl
    | succ count ih =>
        rw [List.replicate_succ', hexValue_append_singleton, ih]
        rfl
  rw [padLeft, hexValue, List.foldl_append]
  exact congrArg (digits.foldl _) (hzeros _)

/-- The `hexitValue` of a digit does not depend on its case. -/
theorem hexitValue_toUpper {c : Char} (h : isHexit c = true) :
    hexitValue c.toUpper = hexitValue c := by
  have hlist : ("0123456789ABCDEFabcdef".toList.all fun d => hexitValue d.toUpper = hexitValue d) =
      true := by decide
  exact of_decide_eq_true (List.all_eq_true.mp hlist c (mem_of_isHexit h))

/-- The `hexValue` of digits does not depend on their case. -/
theorem hexValue_map_toUpper {digits : List Char} (hdigits : ∀ c ∈ digits, isHexit c = true) :
    hexValue (digits.map Char.toUpper) = hexValue digits := by
  rw [hexValue, List.foldl_map]
  refine List.foldl_ext _ _ 0 fun value c hc => ?_
  rw [hexitValue_toUpper (hdigits c hc)]

/-- With `padLeft '0'`, digits stay digits. -/
theorem isHexit_of_mem_padLeft {width : Nat} {digits : List Char} {c : Char}
    (hdigits : ∀ c ∈ digits, isHexit c = true) (hc : c ∈ padLeft '0' width digits) :
    isHexit c = true := by
  rcases List.mem_append.mp hc with hzero | hdigit
  · rw [(List.mem_replicate.mp hzero).2]
    decide
  · exact hdigits c hdigit

/-- Digits that were padded with zeros are read by `readHex?` as their `hexValue`. -/
theorem readHex?_padLeft {digits : List Char} (hne : digits ≠ [])
    (hdigits : ∀ c ∈ digits, isHexit c = true) (width : Nat) :
    readHex? (String.ofList (padLeft '0' width digits)) = some (hexValue digits) := by
  rw [readHex?_ofList (by simp [padLeft, hne]) fun c hc => isHexit_of_mem_padLeft hdigits hc,
    hexValue_padLeft]

/-- The length after `padLeft` is `width`, unless the text is longer. -/
@[simp] theorem length_padLeft (fill : Char) (width : Nat) (text : List Char) :
    (padLeft fill width text).length = max width text.length := by
  simp only [padLeft, List.length_append, List.length_replicate]
  omega

/-- For `n < 16`, the character `n.digitChar` is a hexadecimal digit with value `n`. -/
theorem hexit_digitChar {n : Nat} (h : n < 16) :
    isHexit n.digitChar = true ∧ hexitValue n.digitChar = n := by
  have hlist : ∀ n < 16, isHexit n.digitChar = true ∧ hexitValue n.digitChar = n := by decide
  exact hlist n h

/-- The recursion of `hexits`: all digits but the last are those of `n / 16`. -/
theorem hexits_eq (n : Nat) :
    hexits n = if n < 16 then [n.digitChar] else hexits (n / 16) ++ [(n % 16).digitChar] :=
  Nat.toDigits_eq_if (by decide)

/-- A number has at least one digit in `hexits`. -/
theorem hexits_ne_nil (n : Nat) : hexits n ≠ [] :=
  Nat.toDigits_ne_nil

/-- The characters of `hexits` are hexadecimal digits. Strong induction on the number, along
`hexits_eq`. -/
theorem isHexit_of_mem_hexits {n : Nat} {c : Char} (h : c ∈ hexits n) : isHexit c = true := by
  induction n using Nat.strongRecOn with
  | ind n ih =>
      rw [hexits_eq] at h
      by_cases hlt : n < 16
      · rw [if_pos hlt, List.mem_singleton] at h
        exact h ▸ (hexit_digitChar hlt).1
      · rw [if_neg hlt] at h
        rcases List.mem_append.mp h with hfront | hlast
        · exact ih (n / 16) (by omega) hfront
        · rw [List.mem_singleton] at hlast
          exact hlast ▸ (hexit_digitChar (Nat.mod_lt n (by decide))).1

/-- **Numerals read back**: the `hexValue` of `hexits n` is `n`. Strong induction on `n`, along
`hexits_eq`. -/
theorem hexValue_hexits (n : Nat) : hexValue (hexits n) = n := by
  induction n using Nat.strongRecOn with
  | ind n ih =>
      rw [hexits_eq]
      by_cases hlt : n < 16
      · simp [hexValue, hlt, (hexit_digitChar hlt).2]
      · rw [if_neg hlt, hexValue_append_singleton, ih (n / 16) (by omega),
          (hexit_digitChar (Nat.mod_lt n (by decide))).2]
        omega

/-- The number of digits in `hexits n` is `Nat.log 16 n + 1`. -/
theorem length_hexits (n : Nat) : (hexits n).length = Nat.log 16 n + 1 := by
  have hle (k : Nat) (hk : 0 < k) : (hexits n).length ≤ k ↔ n < 16 ^ k :=
    Nat.length_toDigits_le_iff (by decide) hk
  apply Nat.le_antisymm
  · exact (hle _ (Nat.succ_pos _)).mpr (Nat.lt_pow_succ_log_self (by decide) n)
  · have hpos : 0 < (hexits n).length := Nat.length_toDigits_pos
    exact Nat.log_lt_of_lt_pow' (by omega) ((hle _ hpos).mp (Nat.le_refl _))

/-! ### Bytes in upper case -/

/-- One or two hexadecimal digits in upper case, as in the `value` of a byte literal. -/
structure IsUpperByte (digits : List Char) : Prop where
  length_eq : digits.length = 1 ∨ digits.length = 2
  isHexit : ∀ c ∈ digits, isHexit c = true
  toUpper_eq : ∀ c ∈ digits, c.toUpper = c

/-- A digit in upper case is the `digitChar` of its `hexitValue` in upper case. -/
theorem toUpper_digitChar_hexitValue {c : Char} (h : isHexit c = true) :
    (hexitValue c).digitChar.toUpper = c.toUpper := by
  have hlist : ("0123456789ABCDEFabcdef".toList.all fun d =>
      (hexitValue d).digitChar.toUpper = d.toUpper) = true := by decide
  exact of_decide_eq_true (List.all_eq_true.mp hlist c (mem_of_isHexit h))

/-- On digits in upper case, `hexitValue` is injective. -/
theorem eq_of_hexitValue_eq {c d : Char} (hc : isHexit c = true) (hd : isHexit d = true)
    (hupper : c.toUpper = c) (hupper' : d.toUpper = d) (h : hexitValue c = hexitValue d) :
    c = d := by
  calc c = (hexitValue c).digitChar.toUpper := by rw [toUpper_digitChar_hexitValue hc, hupper]
    _ = (hexitValue d).digitChar.toUpper := by rw [h]
    _ = d := by rw [toUpper_digitChar_hexitValue hd, hupper']

/-- A zero in front does not change the `hexValue`. -/
theorem hexValue_zero_cons (digits : List Char) : hexValue ('0' :: digits) = hexValue digits := rfl

/-- The `hexValue` of the digits of a byte is less than `0x100`. -/
theorem IsUpperByte.hexValue_lt {digits : List Char} (h : IsUpperByte digits) :
    hexValue digits < 0x100 := by
  have hne : digits ≠ [] := by
    rintro rfl
    simpa using h.length_eq
  obtain ⟨value, hread, hlt⟩ := exists_byte_of_digits h.length_eq h.isHexit
  rw [readHex?_ofList hne h.isHexit, Option.some.injEq] at hread
  omega

/-- Two digits with the same `hexValue` as one digit are a zero and that digit. -/
theorem hexValue_singleton_eq {c high low : Char} (h : IsUpperByte [c])
    (h' : IsUpperByte [high, low]) (hvalue : hexValue [c] = hexValue [high, low]) :
    [high, low] = ['0', c] := by
  have hc := hexitValue_lt (h.isHexit c (by simp))
  have hlow := hexitValue_lt (h'.isHexit low (by simp))
  simp only [hexValue, List.foldl_cons, List.foldl_nil] at hvalue
  have hzero : high = '0' :=
    eq_of_hexitValue_eq (h'.isHexit high (by simp)) (by decide) (h'.toUpper_eq high (by simp)) rfl
      (show hexitValue high = 0 by omega)
  have hsame : low = c :=
    eq_of_hexitValue_eq (h'.isHexit low (by simp)) (h.isHexit c (by simp))
      (h'.toUpper_eq low (by simp)) (h.toUpper_eq c (by simp)) (by omega)
  rw [hzero, hsame]

/-- Two spellings `IsUpperByte` have the same `hexValue` exactly if they are the same, up to a
leading zero. -/
theorem hexValue_eq_iff {digits other : List Char} (h : IsUpperByte digits)
    (h' : IsUpperByte other) :
    hexValue digits = hexValue other ↔
      digits = other ∨ digits = '0' :: other ∨ other = '0' :: digits := by
  constructor
  · intro hvalue
    rcases h.length_eq with hone | htwo <;> rcases h'.length_eq with hone' | htwo'
    · obtain ⟨c, rfl⟩ := List.length_eq_one_iff.mp hone
      obtain ⟨d, rfl⟩ := List.length_eq_one_iff.mp hone'
      simp only [hexValue, List.foldl_cons, List.foldl_nil] at hvalue
      have hsame : c = d :=
        eq_of_hexitValue_eq (h.isHexit c (by simp)) (h'.isHexit d (by simp))
          (h.toUpper_eq c (by simp)) (h'.toUpper_eq d (by simp)) (by omega)
      exact .inl (by rw [hsame])
    · obtain ⟨c, rfl⟩ := List.length_eq_one_iff.mp hone
      obtain ⟨high, low, rfl⟩ := List.length_eq_two.mp htwo'
      exact .inr (.inr (hexValue_singleton_eq h h' hvalue))
    · obtain ⟨high, low, rfl⟩ := List.length_eq_two.mp htwo
      obtain ⟨c, rfl⟩ := List.length_eq_one_iff.mp hone'
      exact .inr (.inl (hexValue_singleton_eq h' h hvalue.symm))
    · obtain ⟨high, low, rfl⟩ := List.length_eq_two.mp htwo
      obtain ⟨high', low', rfl⟩ := List.length_eq_two.mp htwo'
      have hlow := hexitValue_lt (h.isHexit low (by simp))
      have hlow' := hexitValue_lt (h'.isHexit low' (by simp))
      simp only [hexValue, List.foldl_cons, List.foldl_nil] at hvalue
      have hhighs : high = high' :=
        eq_of_hexitValue_eq (h.isHexit high (by simp)) (h'.isHexit high' (by simp))
          (h.toUpper_eq high (by simp)) (h'.toUpper_eq high' (by simp)) (by omega)
      have hlows : low = low' :=
        eq_of_hexitValue_eq (h.isHexit low (by simp)) (h'.isHexit low' (by simp))
          (h.toUpper_eq low (by simp)) (h'.toUpper_eq low' (by simp)) (by omega)
      exact .inl (by rw [hhighs, hlows])
  · rintro (rfl | rfl | rfl)
    · rfl
    · exact hexValue_zero_cons other
    · exact (hexValue_zero_cons digits).symm

end MovAsm.Text
