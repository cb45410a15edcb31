import TypedTables.Proofs.Text.Runs
import TypedTables.Text.DecimalDigit
import TypedTables.Text.Numeral

/-!
# Kinds of digits

The ten ASCII digits are decimal digits, all others are beyond ASCII, and none is white space, a letter
or a sign.
-/

namespace TypedTables.Text

variable {c : Char}

theorem isDigit_iff_code : c.isDigit = true ↔ 48 ≤ c.toNat ∧ c.toNat ≤ 57 := by
  simp only [Char.isDigit, Bool.and_eq_true, decide_eq_true_eq, ge_iff_le, UInt32.le_iff_toNat_le]
  rfl

theorem decimalDigit_of_isDigit (h : c.isDigit = true) : decimalDigits.has c = true := by
  have hcode := isDigit_iff_code.mp h
  simp only [CharSet.has, CharSet.hasCode, decimalDigits, List.any_cons, Bool.or_eq_true,
    Bool.and_eq_true, decide_eq_true_eq]
  exact .inl hcode

theorem code_of_decimalDigit (h : decimalDigits.has c = true) :
    (48 ≤ c.toNat ∧ c.toNat ≤ 57) ∨ 128 ≤ c.toNat := by
  have hranges : decimalDigits.ranges.all
      (fun r => (decide (48 ≤ r.1) && decide (r.2 ≤ 57)) || decide (128 ≤ r.1)) = true := by decide
  obtain ⟨r, hr, hc⟩ := List.any_eq_true.mp h
  have := List.all_eq_true.mp hranges r hr
  simp only [Bool.or_eq_true, Bool.and_eq_true, decide_eq_true_eq] at this hc
  omega

theorem isBlank_of_decimalDigit (h : decimalDigits.has c = true) : isBlank c = false := by
  have hapart : decimalDigits.ranges.all
      (fun r => blanks.ranges.all fun r' => decide (r.2 < r'.1) || decide (r'.2 < r.1)) = true := by
    decide +kernel
  rw [Bool.eq_false_iff]
  intro hblank
  obtain ⟨r, hr, hc⟩ := List.any_eq_true.mp h
  obtain ⟨r', hr', hc'⟩ := List.any_eq_true.mp hblank
  have := List.all_eq_true.mp (List.all_eq_true.mp hapart r hr) r' hr'
  simp only [Bool.or_eq_true, Bool.and_eq_true, decide_eq_true_eq] at this hc hc'
  omega

theorem toLower_of_decimalDigit (h : decimalDigits.has c = true) : c.toLower = c := by
  unfold Char.toLower
  split
  · next hupper =>
    have hlow : 65 ≤ c.toNat := UInt32.le_iff_toNat_le.mp hupper.1
    have hhigh : c.toNat ≤ 90 := UInt32.le_iff_toNat_le.mp hupper.2
    have := code_of_decimalDigit h
    omega
  · rfl

theorem splitSign_of_decimalDigit {s : List Char} (hc : decimalDigits.has c = true) :
    splitSign (c :: s) = (false, c :: s) := by
  have hcode := code_of_decimalDigit hc
  unfold splitSign
  split
  · next heq =>
    cases heq
    exact absurd hcode (by decide)
  · next heq =>
    cases heq
    exact absurd hcode (by decide)
  · rfl

end TypedTables.Text
