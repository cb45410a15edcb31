import TypedTables.Proofs.Binary64.Numerals

/-!
# Correct rounding

The double that a decimal denotes is the nearest one: no other magnitude is nearer to the size of the
decimal, and of two that are equally near it is the even one (`NearestTo`). Infinity counts as the
power of two after the greatest finite double.
-/

namespace TypedTables

open Text

namespace Binary64

/-- No magnitude is nearer to the size, and no other one is as near unless this one is even. -/
structure NearestTo (y : ℚ) (m : Nat) : Prop where
  le : m ≤ infinite
  nearest : ∀ n ≤ infinite, |y - units m| ≤ |y - units n|
  tie : ∀ n ≤ infinite, n ≠ m → |y - units n| = |y - units m| → m % 2 = 0

theorem units_le_units {m n : Nat} (h : m ≤ n) : (units m : ℚ) ≤ units n := by
  exact_mod_cast units_strictMono.monotone h

/-- A greater magnitude is further away, as long as the size is not above the midpoint. -/
theorem abs_sub_le_of_lt {y : ℚ} {m n : Nat} (hmn : m < n) (hhigh : 2 * y ≤ units m + units (m + 1)) :
    |y - units m| ≤ |y - units n| ∧
      (|y - units n| = |y - units m| → 2 * y = units m + units (m + 1)) := by
  have hsucc : (units (m + 1) : ℚ) ≤ units n := units_le_units hmn
  have hlt := units_lt_succ m
  rw [abs_of_nonpos (show y - units n ≤ 0 by linarith)]
  rcases le_total y (units m) with hy | hy
  · rw [abs_of_nonpos (by linarith)]
    exact ⟨by linarith, fun h => by linarith⟩
  · rw [abs_of_nonneg (by linarith)]
    exact ⟨by linarith, fun h => by linarith⟩

theorem abs_sub_le_of_gt {y : ℚ} {m n : Nat} (hmn : n < m)
    (hlow : (units (m - 1) + units m : ℚ) ≤ 2 * y) :
    |y - units m| ≤ |y - units n| ∧
      (|y - units n| = |y - units m| → (units (m - 1) + units m : ℚ) = 2 * y) := by
  have hpred : (units n : ℚ) ≤ units (m - 1) := units_le_units (by omega)
  have hlt := units_pred_lt (show 0 < m by omega)
  rw [abs_of_nonneg (show 0 ≤ y - units n by linarith)]
  rcases le_total y (units m) with hy | hy
  · rw [abs_of_nonpos (by linarith)]
    exact ⟨by linarith, fun h => by linarith⟩
  · rw [abs_of_nonneg (by linarith)]
    exact ⟨by linarith, fun h => by linarith⟩

/-- What lies between the midpoints to the neighbours of a magnitude is nearest to it. -/
theorem Near.nearestTo {y : ℚ} {m : Nat} (h : Near m y) (hle : m ≤ infinite) : NearestTo y m where
  le := hle
  nearest n _ := by
    rcases Nat.lt_trichotomy n m with hn | rfl | hn
    · exact (abs_sub_le_of_gt hn h.low).1
    · exact le_refl _
    · exact (abs_sub_le_of_lt hn h.high).1
  tie n _ hne hsame := by
    rcases Nat.lt_or_gt_of_ne hne with hn | hn
    · exact h.tie (.inl ((abs_sub_le_of_gt hn h.low).2 hsame))
    · exact h.tie (.inr ((abs_sub_le_of_lt hn h.high).2 hsame))

theorem nearestTo_infinite {y : ℚ} (h : (units (infinite - 1) + units infinite : ℚ) ≤ 2 * y) :
    NearestTo y infinite where
  le := Nat.le_refl _
  nearest n hn := by
    rcases Nat.lt_or_eq_of_le hn with hn | rfl
    · exact (abs_sub_le_of_gt hn h).1
    · exact le_refl _
  tie _ _ _ _ := by decide

theorem nearestTo_zero {y : ℚ} (h : 2 * y ≤ 1) : NearestTo y 0 where
  le := Nat.zero_le _
  nearest n _ := by
    rcases Nat.eq_zero_or_pos n with rfl | hn
    · exact le_refl _
    · exact (abs_sub_le_of_lt hn (by simpa [units, binade] using h)).1
  tie _ _ _ _ := rfl

theorem nearestTo_roundUnits {num den : Nat} (hden : 0 < den) :
    NearestTo (num / den : ℚ) (roundUnits num den) := by
  have hdenq : (0 : ℚ) < den := by exact_mod_cast hden
  obtain ⟨m, hm⟩ : ∃ m, m = shiftOf num den * binade + stepsOf num den := ⟨_, rfl⟩
  have hnear : 0 < m → Near m (num / den : ℚ) := by
    rw [hm]
    exact near_steps hden
  rw [roundUnits_eq, ← hm]
  rcases Nat.eq_zero_or_pos m with hzero | hpos
  · -- Half a step at most rounds to no step at all.
    obtain ⟨hshift, hsteps⟩ : shiftOf num den * binade = 0 ∧ stepsOf num den = 0 := by omega
    have hshift : shiftOf num den = 0 := (Nat.mul_eq_zero.mp hshift).resolve_right (by decide)
    have habove : 2 * num ≤ den := by
      have hnearest : Nearest num den (roundHalfEven num den) := nearest_roundHalfEven hden
      have := hnearest.above
      rw [stepsOf, hshift, Nat.pow_zero, Nat.mul_one] at hsteps
      rw [hsteps] at this
      omega
    rw [hzero, Nat.min_zero]
    refine nearestTo_zero ?_
    rw [← mul_div_assoc, div_le_one hdenq]
    exact_mod_cast habove
  · rcases Nat.lt_or_ge infinite m with hlt | hle
    · rw [Nat.min_eq_left (Nat.le_of_lt hlt)]
      have hlow := (hnear hpos).low
      have hpred : (units infinite : ℚ) ≤ units (m - 1) := units_le_units (by omega)
      have hall : (units infinite : ℚ) ≤ units m := units_le_units (by omega)
      have hbefore : (units (infinite - 1) : ℚ) ≤ units infinite := units_le_units (by omega)
      exact nearestTo_infinite (by linarith)
    · rw [Nat.min_eq_right hle]
      exact (hnear hpos).nearestTo hle

/-! ## Decimals -/

def decimalValue (whole fraction : List Char) : ℚ :=
  digitsValue whole + digitsValue fraction / 10 ^ fraction.length

/-- The double is the correctly rounded one of a number with a sign, given as its size. -/
structure Rounds (negative : Bool) (size : ℚ) (x : Binary64) : Prop where
  sign : x.negative = negative
  nearest : NearestTo (size * unitsOfOne) x.magnitude

theorem digitsValue_append (ds es : List Char) :
    digitsValue (ds ++ es) = digitsValue ds * 10 ^ es.length + digitsValue es := by
  have hfold : ∀ n, es.foldl (fun n d => 10 * n + (d.toNat - '0'.toNat)) n =
      n * 10 ^ es.length + digitsValue es := by
    induction es with
    | nil => simp [digitsValue]
    | cons e es ih =>
      intro n
      rw [digitsValue, List.foldl_cons, List.foldl_cons, ih, ih, List.length_cons, Nat.pow_succ]
      ring
  rw [digitsValue, List.foldl_append]
  exact hfold _

theorem decimalValue_eq (whole fraction : List Char) :
    decimalValue whole fraction = digitsValue (whole ++ fraction) * 10 ^ (-fraction.length : Int) := by
  rw [decimalValue, digitsValue_append, zpow_neg, zpow_natCast]
  push_cast
  field_simp

theorem decimalSize_digits (whole fraction : List Char) :
    decimalSize (digitsValue (whole ++ fraction)) (-fraction.length) =
      decimalValue whole fraction * unitsOfOne := by
  rw [decimalSize, decimalValue_eq]

theorem two_pow_le_ten_pow {k n : Nat} (h : k ≤ 33 * (n / 10)) : 2 ^ k ≤ 10 ^ n := by
  calc 2 ^ k ≤ 2 ^ (33 * (n / 10)) := Nat.pow_le_pow_right (by decide) h
    _ = (2 ^ 33) ^ (n / 10) := Nat.pow_mul ..
    _ ≤ (10 ^ 10) ^ (n / 10) := Nat.pow_le_pow_left (by decide) _
    _ = 10 ^ (10 * (n / 10)) := (Nat.pow_mul ..).symm
    _ ≤ 10 ^ n := Nat.pow_le_pow_right (by decide) (Nat.mul_div_le n 10)

theorem nearestTo_zero_of_small {d places : Nat} (h : -(places : Int) + d.log2 < -340) :
    NearestTo (decimalSize d (-places)) 0 := by
  obtain ⟨n, hn⟩ : ∃ n, n = 1074 := ⟨_, rfl⟩
  have hd : d < 2 ^ (d.log2 + 1) := Nat.lt_log2_self
  have hsmall : 2 * (d * 2 ^ n) ≤ 10 ^ places := by
    calc 2 * (d * 2 ^ n) ≤ 2 * (2 ^ (d.log2 + 1) * 2 ^ n) :=
          Nat.mul_le_mul_left 2 (Nat.mul_le_mul_right _ (Nat.le_of_lt hd))
      _ = 2 ^ (1 + (d.log2 + 1 + n)) := by rw [Nat.pow_add 2 1, Nat.pow_add 2 (d.log2 + 1)]
      _ ≤ 10 ^ places := two_pow_le_ten_pow (by omega)
  refine nearestTo_zero ?_
  rw [decimalSize_neg, unitsOfOne_eq hn, ← mul_div_assoc, div_le_one (by positivity)]
  exact_mod_cast hsmall

/-- Decimals are read as the nearest double. -/
theorem nearestTo_ofDecimal (negative : Bool) (d places : Nat) :
    NearestTo (decimalSize d (-places)) (ofDecimal negative d (-places)).magnitude := by
  have hratio : NearestTo (decimalSize d (-places)) (ofRatio negative d (10 ^ places)).magnitude := by
    rw [decimalSize_neg, ofRatio]
    exact nearestTo_roundUnits (Nat.pow_pos (by decide))
  unfold ofDecimal
  split
  · next hzero =>
    rw [hzero, decimalSize]
    exact nearestTo_zero (by simp)
  · rw [if_neg (by omega)]
    split
    · next hsmall => exact nearestTo_zero_of_small hsmall
    · split
      · next hnonneg =>
        obtain rfl : places = 0 := by omega
        simpa using hratio
      · simpa using hratio

theorem negative_ofDecimal (negative : Bool) (d : Nat) (exponent : Int) :
    (ofDecimal negative d exponent).negative = negative := by
  unfold ofDecimal
  repeat' split
  all_goals rfl

theorem rounds_of_numeral {negative : Bool} {whole fraction : List Char} {x : Binary64}
    (hwhole : isDigits whole = true) (hfraction : fraction.all Char.isDigit = true)
    (hx : read? (signOf negative ++ whole ++ pointed fraction) = some x) :
    x.Rounds negative (decimalValue whole fraction) := by
  rw [read?_numeral hwhole hfraction] at hx
  cases hx
  refine ⟨negative_ofDecimal .., ?_⟩
  rw [← decimalSize_digits]
  exact nearestTo_ofDecimal ..

theorem rounds_ofInt (i : Int) : (ofInt i).Rounds (decide (i < 0)) i.natAbs where
  sign := rfl
  nearest := by
    have hnearest : NearestTo ((i.natAbs * unitsOfOne : Nat) / (1 : Nat)) _ :=
      nearestTo_roundUnits Nat.one_pos
    rw [Nat.cast_one, div_one, Nat.cast_mul] at hnearest
    rw [magnitude_ofInt]
    exact hnearest

/-! ## The only one -/

/-- Of two magnitudes that are equally near and even, those between are nearer. -/
theorem NearestTo.le_of_nearestTo {y : ℚ} {m n : Nat} (hm : NearestTo y m) (hn : NearestTo y n) :
    n ≤ m := by
  by_contra hlt
  have hsame : |y - units m| = |y - units n| := le_antisymm (hm.nearest n hn.le) (hn.nearest m hm.le)
  have hm_even := hm.tie n hn.le (by omega) hsame.symm
  have hn_even := hn.tie m hm.le (by omega) hsame
  have hbetween := hm.nearest (m + 1) (by have := hn.le; omega)
  have hlow := units_lt_succ m
  have hhigh : (units (m + 1) : ℚ) < units n := by
    exact_mod_cast units_strictMono (show m + 1 < n by omega)
  have hmiddle : 2 * y = units m + units n := by
    rcases (abs_eq_abs).mp hsame with h | h <;> linarith
  have hnearer : |y - units (m + 1)| < |y - units m| := by
    rw [abs_of_nonneg (show 0 ≤ y - units m by linarith), abs_lt]
    constructor <;> linarith
  exact absurd hbetween (not_le.mpr hnearer)

theorem Rounds.unique {negative : Bool} {size : ℚ} {x y : Binary64} (hx : x.Rounds negative size)
    (hy : y.Rounds negative size) : x = y :=
  eq_of_magnitude_eq (hx.sign.trans hy.sign.symm)
    (Nat.le_antisymm (hy.nearest.le_of_nearestTo hx.nearest) (hx.nearest.le_of_nearestTo hy.nearest))

end Binary64

end TypedTables
