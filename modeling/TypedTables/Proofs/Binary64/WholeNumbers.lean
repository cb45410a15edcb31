import TypedTables.Proofs.Binary64.Order
import TypedTables.Proofs.Binary64.Rounding

/-!
# Whole numbers

Whole numbers up to `2^53` are doubles. A smaller one shares its double with no other whole number,
so only greater ones can be different and yet the same as numbers.
-/

namespace TypedTables.Binary64

/-- The least whole number from which on not every whole number is a double. -/
def wholeLimit : Nat := 2 ^ 53

theorem exists_units_of_le {n : Nat} (hn : n ≤ wholeLimit) :
    ∃ m, m < infinite ∧ units m = n * unitsOfOne := by
  by_cases hzero : n = 0
  · exact ⟨0, by decide, by simp [hzero, units, binade]⟩
  · -- Moved up into the highest binade, the number is a rest.
    have hlow := Nat.log2_self_le hzero
    have hhigh : n < 2 ^ (n.log2 + 1) := Nat.lt_log2_self
    obtain ⟨l, up, hl, hup, hle⟩ :
        ∃ l up, l + up = 52 ∧ binade ≤ n * 2 ^ up ∧ n * 2 ^ up ≤ 2 * binade := by
      rcases Nat.lt_or_ge n.log2 53 with hlog | hlog
      · refine ⟨n.log2, 52 - n.log2, by omega, ?_, ?_⟩
        · calc binade = 2 ^ n.log2 * 2 ^ (52 - n.log2) := by
                rw [← Nat.pow_add, show n.log2 + (52 - n.log2) = 52 by omega, binade_eq]
            _ ≤ n * 2 ^ (52 - n.log2) := Nat.mul_le_mul_right _ hlow
        · calc n * 2 ^ (52 - n.log2) ≤ 2 ^ (n.log2 + 1) * 2 ^ (52 - n.log2) :=
                Nat.mul_le_mul_right _ (Nat.le_of_lt hhigh)
            _ = 2 * binade := by
                rw [← Nat.pow_add, show n.log2 + 1 + (52 - n.log2) = 53 by omega]
                rfl
      · have hpow : wholeLimit ≤ 2 ^ n.log2 := Nat.pow_le_pow_right (by decide) hlog
        obtain rfl : n = wholeLimit := by omega
        exact ⟨52, 0, rfl, by decide, by decide⟩
    have hsplit : Split (1022 + l) (n * 2 ^ up) := ⟨hle, .inl hup⟩
    refine ⟨(1022 + l) * binade + n * 2 ^ up, ?_, ?_⟩
    · have hl := Nat.mul_le_mul_right binade (show 1022 + l ≤ 1074 by omega)
      have hinf : 1074 * binade + 2 * binade < infinite := by decide
      omega
    · rw [hsplit.units_eq, Nat.mul_assoc, ← Nat.pow_add, unitsOfOne_eq (k := up + (1022 + l)) (by omega)]

theorem eq_of_roundUnits_eq {m n : Nat} (hm : m < wholeLimit)
    (h : roundUnits (m * unitsOfOne) 1 = roundUnits (n * unitsOfOne) 1) : m = n := by
  have hpos := unitsOfOne_pos
  have hexact : ∀ {i : Nat}, i ≤ wholeLimit →
      units (roundUnits (i * unitsOfOne) 1) = i * unitsOfOne := by
    intro i hi
    obtain ⟨k, hk, hunits⟩ := exists_units_of_le hi
    have hround := roundUnits_units (Nat.le_of_lt hk) Nat.one_pos
    rw [Nat.mul_one, hunits] at hround
    rw [hround, hunits]
  rcases Nat.le_total n wholeLimit with hn | hn
  · have hunits := hexact (Nat.le_of_lt hm)
    rw [h, hexact hn] at hunits
    exact (Nat.eq_of_mul_eq_mul_right hpos hunits).symm
  · -- Beyond the limit sizes are at least that of the limit.
    have hround : roundUnits (wholeLimit * unitsOfOne) 1 ≤ roundUnits (n * unitsOfOne) 1 :=
      roundUnits_mono Nat.one_pos Nat.one_pos
        (Nat.mul_le_mul_right 1 (Nat.mul_le_mul_right unitsOfOne hn))
    have hunits := units_strictMono.monotone hround
    rw [hexact (Nat.le_refl _), ← h, hexact (Nat.le_of_lt hm)] at hunits
    exact absurd (Nat.le_of_mul_le_mul_right hunits hpos) (by omega)

theorem magnitude_ofInt (i : Int) :
    (ofInt i).magnitude = roundUnits (i.natAbs * unitsOfOne) 1 := by
  rw [ofInt, ofRatio]

theorem magnitude_ofInt_mono {i j : Int} (h : i.natAbs ≤ j.natAbs) :
    (ofInt i).magnitude ≤ (ofInt j).magnitude := by
  rw [magnitude_ofInt, magnitude_ofInt]
  exact roundUnits_mono Nat.one_pos Nat.one_pos
    (Nat.mul_le_mul_right 1 (Nat.mul_le_mul_right unitsOfOne h))

theorem negative_ofInt (i : Int) : (ofInt i).negative = decide (i < 0) := rfl

theorem place_ofInt_mono {i j : Int} (h : i ≤ j) : (ofInt i).place ≤ (ofInt j).place := by
  simp only [place, negative_ofInt, decide_eq_true_eq]
  split
  · split
    · have := magnitude_ofInt_mono (i := j) (j := i) (by omega)
      omega
    · omega
  · rw [if_neg (by omega)]
    exact Int.ofNat_le.mpr (magnitude_ofInt_mono (by omega))

theorem natAbs_place (x : Binary64) : x.place.natAbs = x.magnitude := by
  unfold place
  split
  · rw [Int.natAbs_neg, Int.natAbs_natCast]
  · rw [Int.natAbs_natCast]

theorem eq_zero_of_magnitude_ofInt {i : Int} (h : (ofInt i).magnitude = 0) : i = 0 := by
  have hzero : roundUnits (0 * unitsOfOne) 1 = 0 := by
    rw [Nat.zero_mul]
    decide
  rw [magnitude_ofInt, ← hzero] at h
  exact Int.natAbs_eq_zero.mp (eq_of_roundUnits_eq (by decide) h.symm).symm

theorem eq_of_place_ofInt_eq {i j : Int} (hi : i.natAbs < wholeLimit)
    (h : (ofInt i).place = (ofInt j).place) : i = j := by
  have hmagnitude : (ofInt i).magnitude = (ofInt j).magnitude := by
    rw [← natAbs_place, h, natAbs_place]
  have habs : i.natAbs = j.natAbs :=
    eq_of_roundUnits_eq hi (by rwa [← magnitude_ofInt, ← magnitude_ofInt])
  rcases Int.natAbs_eq_natAbs_iff.mp habs with hij | hij
  · exact hij
  · -- Only zeros have the same place with different signs.
    have hzero : j = 0 := by
      refine eq_zero_of_magnitude_ofInt ?_
      rcases Int.lt_trichotomy j 0 with hj | rfl | hj
      · simp [place, negative_ofInt, hmagnitude, hj, show ¬ i < 0 by omega] at h
        omega
      · rfl
      · simp [place, negative_ofInt, hmagnitude, show i < 0 by omega, show ¬ j < 0 by omega] at h
        omega
    rw [hij, hzero, Int.neg_zero]

theorem wholeLimit_le_of_sameNumber {i j : Int} (hne : i ≠ j)
    (h : (ofInt i).sameNumber (ofInt j) = true) :
    wholeLimit ≤ i.natAbs ∧ wholeLimit ≤ j.natAbs := by
  obtain ⟨-, -, hplace⟩ := sameNumber_iff.mp h
  constructor
  · by_contra hi
    exact hne (eq_of_place_ofInt_eq (by omega) hplace)
  · by_contra hj
    exact hne (eq_of_place_ofInt_eq (by omega) hplace.symm).symm

end TypedTables.Binary64
