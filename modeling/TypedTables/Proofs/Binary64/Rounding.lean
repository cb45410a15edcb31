import Mathlib.Data.Nat.Log
import Mathlib.Order.Monotone.Basic
import Mathlib.Tactic.Ring
import TypedTables.Binary64.Basic

/-!
# Rounding

`units` is strictly increasing, `roundUnits` is increasing, and rounding the size of a magnitude gives
the magnitude back. Both are seen through the same split: a magnitude is a number of binades and a
rest `q`, and stands for `q` steps of that binade (`Split`).
-/

namespace TypedTables.Binary64

theorem binade_eq : binade = 2 ^ 52 := rfl

theorem unitsOfOne_eq {k : Nat} (hk : k = 1074) : unitsOfOne = 2 ^ k := by
  rw [unitsOfOne, ← hk, Nat.one_shiftLeft]

theorem unitsOfOne_pos : 0 < unitsOfOne := by
  obtain ⟨k, hk⟩ : ∃ k, k = 1074 := ⟨_, rfl⟩
  rw [unitsOfOne_eq hk]
  exact Nat.two_pow_pos k

/-! ## Sizes of magnitudes -/

/-- The rest is a full binade or more, unless there is no binade before it, and at most two. -/
structure Split (shift q : Nat) : Prop where
  le : q ≤ 2 * binade
  ge : binade ≤ q ∨ shift = 0

theorem Split.units_eq {shift q : Nat} (h : Split shift q) :
    units (shift * binade + q) = q * 2 ^ shift := by
  have hpos : 0 < binade := by decide
  unfold units
  split
  · next hlt =>
    -- Only a split without binades, or with one and nothing else, is as small as this.
    obtain rfl : shift = 0 := by
      rcases h.ge with hge | hzero
      · by_contra hshift
        have := Nat.le_mul_of_pos_left binade (Nat.pos_of_ne_zero hshift)
        omega
      · exact hzero
    simp
  · next hge =>
    rw [Nat.shiftLeft_eq]
    rcases Nat.lt_or_ge q (2 * binade) with hq | hq
    · have hq' : binade ≤ q := h.ge.resolve_right (by rintro rfl; omega)
      have hsplit : shift * binade + q = (q - binade) + binade * (shift + 1) := by
        rw [Nat.mul_add, Nat.mul_comm]
        omega
      rw [hsplit, Nat.add_mul_mod_self_left, Nat.add_mul_div_left _ _ hpos,
        Nat.mod_eq_of_lt (by omega), Nat.div_eq_of_lt (by omega)]
      rw [show binade + (q - binade) = q by omega, show 0 + (shift + 1) - 1 = shift by omega]
    · obtain rfl : q = 2 * binade := by have := h.le; omega
      have hsplit : shift * binade + 2 * binade = binade * (shift + 2) := by ring
      rw [hsplit, Nat.mul_mod_right, Nat.mul_div_cancel_left _ hpos]
      rw [show shift + 2 - 1 = shift + 1 by omega]
      ring

theorem exists_split (m : Nat) :
    ∃ shift q, m = shift * binade + q ∧ q < 2 * binade ∧ Split shift q := by
  have hpos : 0 < binade := by decide
  rcases Nat.lt_or_ge m binade with hm | hm
  · exact ⟨0, m, by simp, by omega, by omega, .inr rfl⟩
  · have hdiv : 1 ≤ m / binade := (Nat.one_le_div_iff hpos).mpr hm
    have hmod := Nat.mod_lt m hpos
    obtain ⟨shift, hshift⟩ := Nat.exists_eq_add_of_le' hdiv
    have hm := Nat.div_add_mod m binade
    rw [hshift, Nat.mul_add, Nat.mul_comm] at hm
    exact ⟨shift, m % binade + binade, by omega, by omega, by omega, .inl (by omega)⟩

theorem units_strictMono : StrictMono units := by
  refine strictMono_nat_of_lt_succ fun m => ?_
  obtain ⟨shift, q, rfl, hlt, hq⟩ := exists_split m
  have hnext : Split shift (q + 1) := ⟨hlt, hq.ge.imp_left Nat.le_succ_of_le⟩
  rw [hq.units_eq, Nat.add_assoc, hnext.units_eq]
  exact Nat.mul_lt_mul_of_pos_right (Nat.lt_succ_self q) (Nat.two_pow_pos shift)

/-! ## Nearest whole numbers -/

/-- The number is as near to the fraction as a whole number can be, and even if another one is as
near. -/
structure Nearest (num den k : Nat) : Prop where
  above : 2 * num ≤ 2 * (k * den) + den
  below : 2 * (k * den) ≤ 2 * num + den
  tie : 2 * num = 2 * (k * den) + den ∨ 2 * (k * den) = 2 * num + den → k % 2 = 0

theorem nearest_roundHalfEven {num den : Nat} (hden : 0 < den) :
    Nearest num den (roundHalfEven num den) := by
  have hdiv := Nat.div_add_mod' num den
  have hmod := Nat.mod_lt num hden
  unfold roundHalfEven
  dsimp only
  generalize num / den = q at *
  generalize num % den = r at *
  have hsucc : (q + 1) * den = q * den + den := Nat.succ_mul q den
  split
  · exact ⟨by omega, by omega, by omega⟩
  · split
    · exact ⟨by omega, by omega, by omega⟩
    · rcases Nat.mod_two_eq_zero_or_one q with hq | hq
      · rw [hq, Nat.add_zero]
        exact ⟨by omega, by omega, fun _ => hq⟩
      · rw [hq]
        exact ⟨by omega, by omega, fun _ => by omega⟩

/-- A greater fraction is not nearest to a smaller number. -/
theorem Nearest.mono {num den num' den' k k' : Nat} (h : Nearest num den k)
    (h' : Nearest num' den' k') (hden : 0 < den) (hden' : 0 < den')
    (hle : num * den' ≤ num' * den) : k ≤ k' := by
  by_contra hlt
  have hlt : k' + 1 ≤ k := by omega
  -- Half a step below `k` and half a step above `k'` meet only if both fractions are there.
  have hbelow : 2 * (k * den) * den' ≤ (2 * num + den) * den' := Nat.mul_le_mul_right den' h.below
  have habove : 2 * num' * den ≤ (2 * (k' * den') + den') * den := Nat.mul_le_mul_right den h'.above
  have hstep : (k' + 1) * (den * den') ≤ k * (den * den') := Nat.mul_le_mul_right _ hlt
  have hk : k * (den * den') = (k' + 1) * (den * den') := by
    ring_nf at *
    omega
  have hk : k = k' + 1 := Nat.eq_of_mul_eq_mul_right (Nat.mul_pos hden hden') hk
  subst hk
  have hdown : 2 * ((k' + 1) * den) = 2 * num + den := by
    refine Nat.eq_of_mul_eq_mul_right hden' ?_
    ring_nf at *
    omega
  have hup : 2 * num' = 2 * (k' * den') + den' := by
    refine Nat.eq_of_mul_eq_mul_right hden ?_
    ring_nf at *
    omega
  have heven := h.tie (.inr hdown)
  have heven' := h'.tie (.inl hup)
  omega

theorem roundHalfEven_mono {num den num' den' : Nat} (hden : 0 < den) (hden' : 0 < den')
    (hle : num * den' ≤ num' * den) : roundHalfEven num den ≤ roundHalfEven num' den' :=
  (nearest_roundHalfEven hden).mono (nearest_roundHalfEven hden') hden hden' hle

theorem roundHalfEven_mul {den : Nat} (k : Nat) (hden : 0 < den) :
    roundHalfEven (k * den) den = k := by
  simp [roundHalfEven, Nat.mul_mod_left, Nat.mul_div_cancel k hden, hden]

theorem roundHalfEven_le {num den k : Nat} (hden : 0 < den) (h : num ≤ k * den) :
    roundHalfEven num den ≤ k := by
  have hmono := roundHalfEven_mono hden hden (Nat.mul_le_mul_right den h)
  rwa [roundHalfEven_mul k hden] at hmono

theorem le_roundHalfEven {num den k : Nat} (hden : 0 < den) (h : k * den ≤ num) :
    k ≤ roundHalfEven num den := by
  have hmono := roundHalfEven_mono hden hden (Nat.mul_le_mul_right den h)
  rwa [roundHalfEven_mul k hden] at hmono

/-! ## Nearest magnitudes -/

/-- The number of binades before the magnitudes that are nearest to the fraction. -/
def shiftOf (num den : Nat) : Nat := (num / den).log2 - 52

/-- The number of steps from there to the nearest magnitude. -/
def stepsOf (num den : Nat) : Nat := roundHalfEven num (den * 2 ^ shiftOf num den)

theorem roundUnits_eq (num den : Nat) :
    roundUnits num den = min infinite (shiftOf num den * binade + stepsOf num den) := by
  rw [roundUnits, stepsOf, shiftOf, Nat.shiftLeft_eq]

theorem shiftOf_mono {num den num' den' : Nat} (hden : 0 < den) (hden' : 0 < den')
    (hle : num * den' ≤ num' * den) : shiftOf num den ≤ shiftOf num' den' := by
  have hdiv : num / den ≤ num' / den' := by
    rw [Nat.le_div_iff_mul_le hden', ← Nat.mul_le_mul_right_iff hden]
    calc num / den * den' * den = num / den * den * den' := by ring
      _ ≤ num * den' := Nat.mul_le_mul_right _ (Nat.div_mul_le_self num den)
      _ ≤ num' * den := hle
  rw [shiftOf, shiftOf, Nat.log2_eq_log_two, Nat.log2_eq_log_two]
  exact Nat.sub_le_sub_right (Nat.log_mono_right hdiv) 52

theorem binade_le_of_shiftOf {num den : Nat} (hden : 0 < den) (hshift : shiftOf num den ≠ 0) :
    binade * (den * 2 ^ shiftOf num den) ≤ num := by
  have hlog : (num / den).log2 = 52 + shiftOf num den := by
    rw [shiftOf] at hshift ⊢
    omega
  have hne : num / den ≠ 0 := by
    intro hzero
    simp [shiftOf, hzero] at hshift
  have hpow : 2 ^ (52 + shiftOf num den) ≤ num / den := hlog ▸ Nat.log2_self_le hne
  have hnum : 2 ^ (52 + shiftOf num den) * den ≤ num := (Nat.le_div_iff_mul_le hden).mp hpow
  rwa [Nat.pow_add, Nat.mul_assoc, Nat.mul_comm (2 ^ shiftOf num den)] at hnum

/-- The steps stay within the binade that the shift leads to. -/
theorem split_steps {num den : Nat} (hden : 0 < den) :
    Split (shiftOf num den) (stepsOf num den) := by
  have hstep : 0 < den * 2 ^ shiftOf num den := Nat.mul_pos hden (Nat.two_pow_pos _)
  constructor
  · refine roundHalfEven_le hstep ?_
    have hlog : num / den < 2 ^ ((num / den).log2 + 1) := Nat.lt_log2_self
    have hpow : 2 ^ ((num / den).log2 + 1) ≤ 2 * binade * 2 ^ shiftOf num den := by
      rw [show 2 * binade = 2 ^ 53 from rfl, ← Nat.pow_add]
      exact Nat.pow_le_pow_right (by decide) (by rw [shiftOf]; omega)
    have hnum : num < 2 * binade * 2 ^ shiftOf num den * den :=
      (Nat.div_lt_iff_lt_mul hden).mp (Nat.lt_of_lt_of_le hlog hpow)
    exact Nat.le_of_lt (by rwa [Nat.mul_comm den, ← Nat.mul_assoc])
  · by_cases hshift : shiftOf num den = 0
    · exact .inr hshift
    · exact .inl (le_roundHalfEven hstep (binade_le_of_shiftOf hden hshift))

theorem roundUnits_mono {num den num' den' : Nat} (hden : 0 < den) (hden' : 0 < den')
    (hle : num * den' ≤ num' * den) : roundUnits num den ≤ roundUnits num' den' := by
  have hsplit : Split (shiftOf num den) (stepsOf num den) := split_steps hden
  have hsplit' : Split (shiftOf num' den') (stepsOf num' den') := split_steps hden'
  have hshift := shiftOf_mono hden hden' hle
  rw [roundUnits_eq, roundUnits_eq]
  refine min_le_min_left infinite ?_
  rcases Nat.lt_or_eq_of_le hshift with hlt | heq
  · -- Two binades of the lower shift are one of the next.
    have hge := hsplit'.ge.resolve_right (by omega)
    have hbinades := Nat.mul_le_mul_right binade hlt
    have := hsplit.le
    rw [Nat.succ_mul] at hbinades
    omega
  · rw [heq]
    refine Nat.add_le_add_left ?_ _
    rw [stepsOf, stepsOf, heq]
    refine roundHalfEven_mono (Nat.mul_pos hden (Nat.two_pow_pos _))
      (Nat.mul_pos hden' (Nat.two_pow_pos _)) ?_
    rw [← Nat.mul_assoc, ← Nat.mul_assoc]
    exact Nat.mul_le_mul_right _ hle

theorem roundUnits_units {m : Nat} (hm : m ≤ infinite) {den : Nat} (hden : 0 < den) :
    roundUnits (units m * den) den = m := by
  obtain ⟨shift, q, rfl, hlt, hq⟩ := exists_split m
  have hshift : shiftOf (q * 2 ^ shift * den) den = shift := by
    rw [shiftOf, Nat.mul_div_cancel _ hden]
    rcases hq.ge with hge | rfl
    · have hpos : q * 2 ^ shift ≠ 0 :=
        Nat.ne_of_gt (Nat.mul_pos (Nat.lt_of_lt_of_le (by decide) hge) (Nat.two_pow_pos _))
      have hlog : (q * 2 ^ shift).log2 = 52 + shift := by
        rw [Nat.log2_eq_iff hpos, Nat.pow_add, show 52 + shift + 1 = 53 + shift by omega, Nat.pow_add]
        exact ⟨Nat.mul_le_mul_right _ hge, Nat.mul_lt_mul_of_pos_right hlt (Nat.two_pow_pos _)⟩
      omega
    · by_cases hzero : q = 0
      · simp [hzero]
      · have hlog : (q * 2 ^ 0).log2 < 53 := by
          rw [Nat.log2_lt (by simpa using hzero), Nat.pow_zero, Nat.mul_one]
          exact hlt
        omega
  have hsteps : stepsOf (q * 2 ^ shift * den) den = q := by
    rw [stepsOf, hshift, Nat.mul_assoc, Nat.mul_comm (2 ^ shift)]
    exact roundHalfEven_mul q (Nat.mul_pos hden (Nat.two_pow_pos _))
  rw [hq.units_eq, roundUnits_eq, hshift, hsteps, min_eq_right hm]

end TypedTables.Binary64
