import TypedTables.Proofs.Binary64.Positional
import TypedTables.Proofs.Binary64.Successor

/-!
# Lengths of whole numbers

A double that is a whole number is displayed on a grid of whole numbers, so its length says which powers of
ten it reaches. Adding one makes it longer only by leading to such a power.
-/

namespace TypedTables.Binary64

variable {x : Binary64} {m n p : Nat}

theorem Decimal.length_positional {g : Nat} {k : Int} (hk : 0 ≤ k) :
    ((Decimal.mk g k).positional.length : Int) = (Decimal.mk g k).firstPlace + 1 := by
  obtain ⟨e, rfl⟩ := Int.eq_ofNat_of_zero_le hk
  unfold positional firstPlace
  dsimp only
  rw [if_pos (Int.natCast_nonneg e), List.length_append, List.length_replicate, Int.toNat_natCast]
  omega

theorem exists_units_powerOfTen (hp : p ≤ 17) : ∃ m, units m = 10 ^ p * unitsOfOne := by
  rcases Nat.lt_or_ge p 16 with hlt | hge
  · have hpow : 10 ^ p ≤ 10 ^ 15 := Nat.pow_le_pow_right (by decide) (by omega)
    obtain ⟨m, -, hm⟩ := exists_units_of_le (show 10 ^ p ≤ wholeLimit from hpow.trans (by decide))
    exact ⟨m, hm⟩
  · obtain rfl | rfl : p = 16 ∨ p = 17 := by omega
    · exact ⟨(ofInt (10 ^ 16)).magnitude, by decide +kernel⟩
    · exact ⟨(ofInt (10 ^ 17)).magnitude, by decide +kernel⟩

theorem near_powerOfTen_of_units {M : Nat} (hM : units M = 10 ^ p * unitsOfOne) :
    Near M (decimalSize 1 p) := by
  have hsize : decimalSize 1 p = units M := by
    rw [decimalSize_one, hM]
    push_cast
    rfl
  have hpos : 0 < M := by
    refine Nat.pos_of_ne_zero ?_
    rintro rfl
    have hpow : 0 < 10 ^ p * unitsOfOne := Nat.mul_pos (Nat.pow_pos (by decide)) unitsOfOne_pos
    rw [← hM] at hpow
    exact absurd hpow (by decide)
  rw [hsize]
  exact near_units hpos

theorem IsWhole.near (h : x.IsWhole n) (hn : 0 < n) : Near x.magnitude (decimalSize n 0) := by
  have hsize : decimalSize n 0 = units x.magnitude := by
    rw [decimalSize, h.cast_units, zpow_zero, mul_one]
  rw [hsize]
  exact near_units (h.magnitude_pos hn)

/-- The digits of a whole number lie on a grid of whole numbers, so they show its first place. -/
theorem IsWhole.length_toText (h : x.IsWhole n) (hn : 0 < n) :
    (x.toText.length : Int) = (shortest .up x.magnitude).firstPlace + 1 := by
  have hpos := h.magnitude_pos hn
  obtain ⟨g, k, hshortest, hk, -⟩ := shortest_spec hpos (h.near hn) (Int.natCast_nonneg _) .up
  have htext : x.toText = (shortest .up x.magnitude).positional := by
    rw [toText_eq (Nat.le_of_lt h.magnitude_lt), h.negative_eq hn, if_neg (Nat.ne_of_gt hpos),
      if_pos h.magnitude_lt]
    rfl
  rw [htext, hshortest]
  exact Decimal.length_positional hk

theorem IsWhole.lt_length_iff (h : x.IsWhole n) (hn : 0 < n) (hp : p ≤ 17) :
    p < x.toText.length ↔ 10 ^ p ≤ n := by
  obtain ⟨M, hM⟩ := exists_units_powerOfTen hp
  have hpos := h.magnitude_pos hn
  have hplace := le_firstPlace_iff hpos (near_powerOfTen_of_units hM)
    (fun hnear => by exact_mod_cast le_coarsest hpos hnear) .up
  have hlength := h.length_toText hn
  calc p < x.toText.length ↔ (p : Int) ≤ (shortest .up x.magnitude).firstPlace := by omega
    _ ↔ M ≤ x.magnitude := hplace
    _ ↔ units M ≤ units x.magnitude := units_strictMono.le_iff_le.symm
    _ ↔ 10 ^ p ≤ n := by
      rw [hM, h.units_magnitude]
      exact Nat.mul_le_mul_right_iff unitsOfOne_pos

theorem nextWhole?_le (h : nextWhole? n = some m) : n < m ∧ m ≤ 2 * wholeLimit := by
  unfold nextWhole? at h
  split at h
  · cases h
    omega
  · split at h
    · cases h
      omega
    · cases h

theorem eq_powerOfTen_of_nextWhole? (h : nextWhole? n = some m) (hn : n < 10 ^ p) (hm : 10 ^ p ≤ m) :
    m = 10 ^ p := by
  unfold nextWhole? at h
  split at h
  · cases h
    omega
  · next hlimit =>
    split at h
    · next htwo =>
      cases h
      have hp : 2 ≤ p := by
        by_contra hlt
        have hpow : 10 ^ p ≤ 10 ^ 1 := Nat.pow_le_pow_right (by decide) (by omega)
        exact hlimit (Nat.lt_of_lt_of_le hn (hpow.trans (by decide)))
      obtain ⟨i, rfl⟩ := Nat.exists_eq_add_of_le hp
      rw [Nat.pow_add] at hn hm ⊢
      omega
    · cases h

/-- A whole number that fits is followed by one that fits, or by the next power of ten. -/
theorem IsWhole.length_addOne (h : x.IsWhole n) (hm : nextWhole? n = some m)
    (hfits : x.toText.length ≤ p) : x.addOne.toText.length ≤ p ∨ m = 10 ^ p := by
  have hnext := h.addOne hm
  obtain ⟨hlt, hle⟩ := nextWhole?_le hm
  have hpos : 0 < m := Nat.lt_of_le_of_lt (Nat.zero_le n) hlt
  rcases Nat.lt_or_ge 17 p with hlarge | hsmall
  · -- Nothing is counted on beyond twice the limit, which has seventeen digits.
    left
    have hseventeen : x.addOne.toText.length ≤ 17 := by
      refine Nat.not_lt.mp fun hlong => ?_
      have hreach := (hnext.lt_length_iff hpos (Nat.le_refl 17)).mp hlong
      exact absurd (hreach.trans hle) (by decide)
    omega
  · rcases Nat.lt_or_ge m (10 ^ p) with hless | hreach
    · left
      exact Nat.not_lt.mp fun hlong => Nat.not_le.mpr hless ((hnext.lt_length_iff hpos hsmall).mp hlong)
    · refine .inr (eq_powerOfTen_of_nextWhole? hm ?_ hreach)
      rcases Nat.eq_zero_or_pos n with rfl | hn
      · exact Nat.pow_pos (by decide)
      · exact Nat.not_le.mp fun hge => Nat.not_lt.mpr hfits ((h.lt_length_iff hn hsmall).mpr hge)

end TypedTables.Binary64
