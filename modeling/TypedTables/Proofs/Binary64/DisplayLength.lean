import TypedTables.Proofs.Binary64.Intervals

/-!
# Lengths of displayed numbers

A double that is read from digits with or without a fraction is displayed in no more characters,
unless it is rounded up to the next power of ten.
-/

namespace TypedTables.Binary64

variable {m g : Nat} {k : Int} {y z : ℚ}

/-! ## Widths of intervals -/

theorem units_succ_lt {m : Nat} (hm : 2 ≤ m) : units (m + 1) < 2 * units (m - 1) + units m := by
  obtain ⟨shift, q, hsplit, hlt, hq⟩ := exists_split (m - 1)
  have hpow := Nat.two_pow_pos shift
  have hnext : Split shift (q + 1) := ⟨hlt, hq.ge.imp_left Nat.le_succ_of_le⟩
  have hq1 : 1 ≤ q := by
    rcases hq.ge with hge | rfl
    · exact Nat.le_trans (by decide) hge
    · omega
  have hm0 : units (m - 1) = q * 2 ^ shift := by rw [hsplit, hq.units_eq]
  have hm1 : units m = (q + 1) * 2 ^ shift := by
    rw [← hnext.units_eq, show m = shift * binade + (q + 1) by omega]
  rw [hm0, hm1]
  rcases Nat.lt_or_ge (q + 1) (2 * binade) with hq2 | hq2
  · have hafter : Split shift (q + 2) := ⟨hq2, hnext.ge.imp_left Nat.le_succ_of_le⟩
    rw [show m + 1 = shift * binade + (q + 2) by omega, hafter.units_eq]
    nlinarith
  · -- The next magnitude is the first after the end of the binade.
    have hbinade : binade = 2 ^ 52 := rfl
    have hafter : Split (shift + 1) (binade + 1) := ⟨by decide, .inl (Nat.le_succ _)⟩
    have hm2 : m + 1 = (shift + 1) * binade + (binade + 1) := by
      rw [Nat.add_mul, Nat.one_mul]
      omega
    have hq3 : q + 3 = 2 * (binade + 1) := by omega
    rw [hm2, hafter.units_eq, Nat.pow_succ]
    have hlarge : 2 ≤ q := by omega
    calc (binade + 1) * (2 ^ shift * 2) = (q + 3) * 2 ^ shift := by rw [hq3]; ring
      _ < 2 * (q * 2 ^ shift) + (q + 1) * 2 ^ shift := by nlinarith

/-- From one on, the interval that rounds to a double is less than twice as far up as down. -/
theorem Near.lt_two_mul (hm : 0 < m) (hy : Near m y) (hz : Near m z)
    (hone : (unitsOfOne : ℚ) ≤ z) : z < 2 * y := by
  rcases Nat.lt_or_ge m 2 with hsmall | hlarge
  · -- The least double is far below one.
    obtain rfl : m = 1 := by omega
    have htwo : (2 : ℚ) ≤ unitsOfOne := by
      obtain ⟨n, hn⟩ : ∃ n : Nat, n = 1074 := ⟨_, rfl⟩
      have hpow : 2 ^ 1 ≤ 2 ^ n := Nat.pow_le_pow_right (by decide) (by omega)
      rw [← unitsOfOne_eq hn] at hpow
      exact_mod_cast hpow
    have hhigh := hz.high
    have h1 : units 1 = 1 := rfl
    have h2 : units (1 + 1) = 2 := rfl
    rw [h1, h2] at hhigh
    norm_num at hhigh
    linarith
  · have hwidth : (units (m + 1) : ℚ) < 2 * units (m - 1) + units m := by
      exact_mod_cast units_succ_lt hlarge
    linarith [hy.low, hz.high]

/-! ## Digits -/

theorem length_toDigits_le {n k : Nat} (hk : 0 < k) (h : n < 10 ^ k) :
    (Nat.toDigits 10 n).length ≤ k :=
  (Nat.length_toDigits_le_iff (by decide) hk).mpr h

theorem length_positional_le {w f : Nat} (hw : 0 < w) (hg : 0 < g) (hk : -(f : Int) ≤ k)
    (h : decimalSize g k < decimalSize 1 w) :
    (Decimal.positional ⟨g, k⟩).length ≤ w + if f = 0 then 0 else f + 1 := by
  have hone : (0 : ℚ) < unitsOfOne := by exact_mod_cast unitsOfOne_pos
  have hlt : (g : ℚ) * 10 ^ k < 10 ^ w := by
    have := lt_of_mul_lt_mul_right h hone.le
    simpa using this
  unfold Decimal.positional
  dsimp only
  split
  · next hpos =>
    obtain ⟨n, rfl⟩ := Int.eq_ofNat_of_zero_le hpos
    have hnat : g * 10 ^ n < 10 ^ w := by exact_mod_cast hlt
    have hn : n < w := by
      by_contra hge
      have hpow : 10 ^ w ≤ 10 ^ n := Nat.pow_le_pow_right (by decide) (Nat.le_of_not_lt hge)
      have := Nat.le_mul_of_pos_left (10 ^ n) hg
      omega
    have hdigits : g < 10 ^ (w - n) := by
      refine Nat.lt_of_mul_lt_mul_right (a := 10 ^ n) ?_
      rwa [← Nat.pow_add, Nat.sub_add_cancel (Nat.le_of_lt hn)]
    have hlength := length_toDigits_le (by omega) hdigits
    rw [List.length_append, List.length_replicate]
    simp only [Int.toNat_natCast]
    omega
  · next hneg =>
    obtain ⟨n, hn⟩ := Int.eq_ofNat_of_zero_le (show 0 ≤ -k by omega)
    obtain rfl : k = -n := by omega
    have hdigits : g < 10 ^ (w + n) := by
      have hten : (0 : ℚ) < 10 ^ n := by positivity
      rw [zpow_neg, zpow_natCast, ← div_eq_mul_inv, div_lt_iff₀ hten, ← pow_add] at hlt
      exact_mod_cast hlt
    have hlength := length_toDigits_le (by omega) hdigits
    have hf : f ≠ 0 := by omega
    rw [if_neg hf]
    simp only [neg_neg, Int.toNat_natCast]
    split
    · simp only [List.length_append, List.length_take, List.length_cons, List.length_drop]
      omega
    · simp only [List.length_append, List.length_cons, List.length_replicate]
      omega

theorem decimalSize_one (w : Nat) : decimalSize 1 w = 10 ^ w * unitsOfOne := by
  rw [decimalSize, Nat.cast_one, one_mul, zpow_natCast]

theorem unitsOfOne_le_decimalSize_one (w : Nat) : (unitsOfOne : ℚ) ≤ decimalSize 1 w := by
  rw [decimalSize_one]
  exact le_mul_of_one_le_left (Nat.cast_nonneg _) (one_le_pow₀ (by norm_num))

/-- The search for the shortest decimal starts above every power of ten that is near. -/
theorem le_coarsest {w : Nat} (hm : 0 < m) (h : Near m (decimalSize 1 w)) : w ≤ coarsest m := by
  have hdigits : units m / unitsOfOne < 10 ^ coarsest m :=
    (Nat.length_toDigits_le_iff (by decide) Nat.length_toDigits_pos).mp (Nat.le_refl _)
  have hunits : (units m : ℚ) < 10 ^ coarsest m * unitsOfOne := by
    exact_mod_cast (Nat.div_lt_iff_lt_mul unitsOfOne_pos).mp hdigits
  have hwidth := (near_units hm).lt_two_mul hm h (unitsOfOne_le_decimalSize_one w)
  have hone : (0 : ℚ) < unitsOfOne := by exact_mod_cast unitsOfOne_pos
  have hpow : (10 : ℚ) ^ w < 2 * 10 ^ coarsest m := by
    rw [decimalSize_one] at hwidth
    exact lt_of_mul_lt_mul_right (by linarith) hone.le
  by_contra hlt
  have hle : (10 : ℚ) ^ (coarsest m + 1) ≤ 10 ^ w :=
    pow_le_pow_right₀ (by norm_num) (Nat.lt_of_not_le hlt)
  rw [pow_succ] at hle
  have hten : (0 : ℚ) < 10 ^ coarsest m := by positivity
  linarith

/-- What is not below a power of ten, but rounds like a decimal below it, is displayed as the power. -/
theorem eq_one_of_le_decimalSize {w : Nat} (hm : 0 < m) (hg : 0 < g) (hbelow : y < decimalSize 1 w)
    (hy : Near m y) (hnear : Near m (decimalSize g k)) (hle : decimalSize 1 w ≤ decimalSize g k)
    (hnone : ∀ e k', k < k' → k' ≤ coarsest m → ¬Near m (decimalSize e k')) : g = 1 ∧ k = w := by
  have hpower : Near m (decimalSize 1 w) := hy.between hnear hbelow.le hle
  have hwidth := hy.lt_two_mul hm hnear ((unitsOfOne_le_decimalSize_one w).trans hle)
  have hone : (0 : ℚ) < unitsOfOne := by exact_mod_cast unitsOfOne_pos
  have hlt : (g : ℚ) * 10 ^ k < 2 * 10 ^ w := by
    refine lt_of_mul_lt_mul_right ?_ hone.le
    rw [decimalSize_one] at hbelow
    rw [decimalSize] at hwidth
    linarith
  have hk : (w : Int) ≤ k := by
    by_contra hk
    exact hnone 1 w (by omega) (by exact_mod_cast le_coarsest hm hpower) hpower
  obtain ⟨n, rfl⟩ := Int.eq_ofNat_of_zero_le (show 0 ≤ k by omega)
  have hnat : g * 10 ^ n < 2 * 10 ^ w := by exact_mod_cast hlt
  have hn : n = w := by
    by_contra hne
    have hpow : 10 ^ (w + 1) ≤ 10 ^ n := Nat.pow_le_pow_right (by decide) (by omega)
    have hge := Nat.le_mul_of_pos_left (10 ^ n) hg
    rw [Nat.pow_succ] at hpow
    omega
  subst hn
  have hg2 : g < 2 := Nat.lt_of_mul_lt_mul_right hnat
  exact ⟨by omega, rfl⟩

/-- A decimal that is read is displayed with no more digits, unless it has no fraction and is rounded
up to a power of ten. -/
theorem length_shortest_le {d w f : Nat} (hm : 0 < m) (hw : 0 < w) (hd : d < 10 ^ (w + f))
    (hnear : Near m (decimalSize d (-f))) (tie : Tie) :
    (shortest tie m).positional.length ≤ (w + if f = 0 then 0 else f + 1) ∨
      (f = 0 ∧ (shortest tie m).positional = '1' :: List.replicate w '0') := by
  obtain ⟨g, k, hshortest, hk, hg, hnone⟩ := shortest_spec hm hnear (by omega) tie
  have hone : (0 : ℚ) < unitsOfOne := by exact_mod_cast unitsOfOne_pos
  have hpos : 0 < g := pos_of_near hm hg
  have hbelow : decimalSize d (-f) < decimalSize 1 w := by
    have hten : (0 : ℚ) < 10 ^ f := by positivity
    rw [decimalSize_one, decimalSize, zpow_neg, zpow_natCast, ← div_eq_mul_inv]
    refine mul_lt_mul_of_pos_right ?_ hone
    rw [div_lt_iff₀ hten, ← pow_add]
    exact_mod_cast hd
  rw [hshortest]
  rcases lt_or_ge (decimalSize g k) (decimalSize 1 w) with hlt | hge
  · exact .inl (length_positional_le hw hpos hk hlt)
  · obtain ⟨rfl, rfl⟩ := eq_one_of_le_decimalSize hm hpos hbelow hnear hg hge hnone
    have hdisplay : Decimal.positional ⟨1, w⟩ = '1' :: List.replicate w '0' := by
      unfold Decimal.positional
      rw [if_pos (Int.natCast_nonneg w)]
      show Nat.toDigits 10 1 ++ List.replicate w '0' = '1' :: List.replicate w '0'
      rw [Nat.toDigits_of_lt_base (by decide)]
      rfl
    rw [hdisplay]
    by_cases hf : f = 0
    · exact .inr ⟨hf, rfl⟩
    · left
      rw [if_neg hf, List.length_cons, List.length_replicate]
      omega

end TypedTables.Binary64
