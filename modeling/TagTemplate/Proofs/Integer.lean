import Mathlib.Data.List.Basic
import Mathlib.Data.List.TakeWhile
import TagTemplate.Number.Integer

/-!
# Integers that are rows of digits

A row of digits and nothing else is an integer unless it is too long. The numeral of a natural number is such
a row, and stands for that number.
-/

namespace TagTemplate

namespace Text

theorem isDigit_iff {c : Char} : isDigit c = true ↔ ∃ row ∈ digitZeros, row ≤ c.toNat ∧ c.toNat ≤ row + 9 := by
  simp [isDigit, digitValue?, List.find?_isSome]

/-- Between the rows of digits there is room for everything else that has a meaning in a tag. -/
theorem digitZeros_apart : ∀ row ∈ digitZeros, 0x30 ≤ row ∧ (row = 0x30 ∨ 0x100 ≤ row) ∧
    (row + 9 < 0x1680 ∨ 0x1680 < row) ∧ (row + 9 < 0x2000 ∨ 0x3000 < row) := by
  decide

theorem not_isBlank_of_isDigit {c : Char} (h : isDigit c = true) : isBlank c = false := by
  obtain ⟨row, hmem, hrow⟩ := isDigit_iff.1 h
  have hapart := digitZeros_apart row hmem
  simp only [isBlank, isAsciiBlank, Bool.or_eq_false_iff, Bool.and_eq_false_iff, decide_eq_false_iff_not,
    beq_eq_false_iff_ne]
  omega

theorem not_isDigit_of_mem_signs : ∀ c ∈ ['-', '+', '_'], isDigit c = false := by
  rw [← List.forall_iff_forall_mem]
  decide

theorem digitValue?_of_isDigit {c : Char} (h : c.isDigit = true) :
    digitValue? c = some (c.toNat - '0'.toNat) := by
  have hc : 0x30 ≤ c.toNat ∧ c.toNat ≤ 0x30 + 9 := by
    simp only [Char.isDigit, Bool.and_eq_true, decide_eq_true_eq, ge_iff_le, UInt32.le_iff_toNat_le] at h
    exact h
  simp [digitValue?, digitZeros, hc]

end Text

namespace Number

open Text (isDigit)

variable {digits : List Char}

theorem not_isMargin_of_isDigit {c : Char} (h : isDigit c = true) : isMargin c = false := by
  rw [isMargin, Text.not_isBlank_of_isDigit h, Bool.false_and]

theorem isGrouped_of_digits (hne : digits ≠ []) (h : ∀ c ∈ digits, isDigit c = true) :
    isGrouped digits = true := by
  fun_induction isGrouped digits with
  | case1 => exact absurd rfl hne
  | case2 c => exact h c (by simp)
  | case3 c s ih =>
      have hunderscore := h '_' (by simp)
      rw [Text.not_isDigit_of_mem_signs '_' (by simp)] at hunderscore
      exact absurd hunderscore (by decide)
  | case4 c s hs _ ih =>
      rw [List.forall_mem_cons] at h
      rw [h.1, ih (mt (hs ·) (by simp)) h.2]
      rfl

theorem splitSign_of_digits (h : ∀ c ∈ digits, isDigit c = true) : splitSign digits = (false, digits) := by
  unfold splitSign
  split
  · exact absurd (h '-' (by simp)) (by decide)
  · exact absurd (h '+' (by simp)) (by decide)
  · rfl

/-- A row of digits is an integer unless it is too long. -/
theorem readInteger_of_digits (hne : digits ≠ []) (h : ∀ c ∈ digits, isDigit c = true) :
    readInteger (String.ofList digits) =
      if maxDigits < digits.length then .error (.tooLong digits.length) else .ok (ofDigits digits : Int) := by
  have hmargin : digits.dropWhile isMargin = digits := by
    rw [List.dropWhile_eq_self_iff]
    intro hpos
    simpa using not_isMargin_of_isDigit (h _ (List.getElem_mem hpos))
  have hrow : ∀ c ∈ digits, (isDigit c || c == '_') = true := fun c hc => by simp [h c hc]
  rw [readInteger, String.toList_ofList, hmargin, splitSign_of_digits h]
  simp only [List.takeWhile_eq_self_iff.2 hrow, List.dropWhile_eq_nil_iff.2 hrow,
    isGrouped_of_digits hne h, List.countP_eq_length.2 h]
  by_cases hlong : maxDigits < digits.length
  · rw [if_pos hlong, if_pos hlong]
    rfl
  · rw [if_neg hlong, if_neg hlong]
    rfl

theorem ofDigits_eq_ofDigitChars (h : ∀ c ∈ digits, c.isDigit = true) :
    ofDigits digits = Nat.ofDigitChars 10 digits 0 := by
  have hvalues : digits.filterMap Text.digitValue? = digits.map fun c => c.toNat - '0'.toNat := by
    induction digits with
    | nil => rfl
    | cons c digits ih =>
        obtain ⟨hc, hdigits⟩ := List.forall_mem_cons.1 h
        rw [List.filterMap_cons_some (Text.digitValue?_of_isDigit hc), ih hdigits, List.map_cons]
  rw [ofDigits, hvalues, List.foldl_map]
  rfl

theorem isDigit_of_mem_toDigits {n : Nat} {c : Char} (h : c ∈ Nat.toDigits 10 n) : isDigit c = true :=
  Text.isDigit_of_isDigit (Nat.isDigit_of_mem_toDigits (by decide) (by decide) h)

/-- The numeral of a number is read as that number unless it is too long. -/
theorem readInteger_toString (n : Nat) : readInteger (toString n) =
    if maxDigits < (toString n).length then .error (.tooLong (toString n).length) else .ok (n : Int) := by
  have hdigits : ∀ c ∈ Nat.toDigits 10 n, c.isDigit = true :=
    fun _ hc => Nat.isDigit_of_mem_toDigits (by decide) (by decide) hc
  rw [Nat.toString_eq_ofList_toDigits, String.length_ofList, readInteger_of_digits Nat.toDigits_ne_nil
    fun _ => isDigit_of_mem_toDigits, ofDigits_eq_ofDigitChars hdigits, Nat.ofDigitChars_ten_toDigits]

end Number

end TagTemplate
