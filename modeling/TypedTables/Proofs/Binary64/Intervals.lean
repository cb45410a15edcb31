import Mathlib.Algebra.Order.Field.Power
import Mathlib.Data.Rat.Floor
import Mathlib.Tactic.FieldSimp
import Mathlib.Tactic.Linarith
import Mathlib.Tactic.LinearCombination
import TypedTables.Binary64.Shortest
import TypedTables.Proofs.Binary64.Rounding

/-!
# Intervals that round to a double

The sizes that round to a magnitude lie between the midpoints to the two magnitudes next to it
(`Near`). Sizes are rational multiples of `2^-1074` here, so that those of decimals are among them.
-/

namespace TypedTables.Binary64

/-- The size lies between the midpoints to the neighbours of the magnitude, and on one of them only if
the magnitude is even. -/
structure Near (m : Nat) (y : ℚ) : Prop where
  low : (units (m - 1) + units m : ℚ) ≤ 2 * y
  high : 2 * y ≤ units m + units (m + 1)
  tie : (units (m - 1) + units m : ℚ) = 2 * y ∨ 2 * y = units m + units (m + 1) → m % 2 = 0

theorem units_lt_succ (m : Nat) : (units m : ℚ) < units (m + 1) := by
  exact_mod_cast units_strictMono (Nat.lt_succ_self m)

theorem units_pred_lt {m : Nat} (hm : 0 < m) : (units (m - 1) : ℚ) < units m := by
  exact_mod_cast units_strictMono (Nat.sub_lt hm Nat.one_pos)

theorem Near.between {m : Nat} {y z p : ℚ} (hy : Near m y) (hz : Near m z) (hyp : y ≤ p)
    (hpz : p ≤ z) : Near m p where
  low := by linarith [hy.low]
  high := by linarith [hz.high]
  tie h := by
    rcases h with h | h
    · exact hy.tie (.inl (by linarith [hy.low]))
    · exact hz.tie (.inr (by linarith [hz.high]))

theorem near_units {m : Nat} (hm : 0 < m) : Near m (units m) := by
  have hpred := units_pred_lt hm
  have hsucc := units_lt_succ m
  refine ⟨by linarith, by linarith, fun h => ?_⟩
  rcases h with h | h <;> linarith

/-! ## Rounding -/

/-- The next magnitude is a step further, or two of the steps before where a binade ends. -/
theorem Split.le_units_succ {shift q : Nat} (h : Split shift q) :
    (q + 1) * 2 ^ shift ≤ units (shift * binade + q + 1) := by
  rcases Nat.lt_or_ge q (2 * binade) with hq | hq
  · have hnext : Split shift (q + 1) := ⟨hq, h.ge.imp_left Nat.le_succ_of_le⟩
    rw [Nat.add_assoc, hnext.units_eq]
  · obtain rfl : q = 2 * binade := by have := h.le; omega
    have hnext : Split (shift + 1) (binade + 1) := ⟨by decide, .inl (Nat.le_succ _)⟩
    rw [show shift * binade + 2 * binade + 1 = (shift + 1) * binade + (binade + 1) by ring,
      hnext.units_eq, Nat.pow_succ]
    have := Nat.two_pow_pos shift
    nlinarith

theorem Split.cast_units {shift q : Nat} (h : Split shift q) :
    (units (shift * binade + q) : ℚ) = q * 2 ^ shift := by
  rw [h.units_eq]
  push_cast
  rfl

theorem Split.pred {shift q : Nat} (h : Split shift (q + 1)) (hfirst : shift ≠ 0 → q + 1 ≠ binade) :
    Split shift q := by
  refine ⟨Nat.le_of_succ_le h.le, or_iff_not_imp_right.mpr fun hshift => ?_⟩
  have hge := h.ge.resolve_right hshift
  have hne := hfirst hshift
  omega

/-- The size is at most half a step away from `q` steps, and half a step only if `q` is even. -/
structure HalfStep (step : ℚ) (q : Nat) (y : ℚ) : Prop where
  above : 2 * y ≤ 2 * (q * step) + step
  below : 2 * (q * step) ≤ 2 * y + step
  tie : 2 * y = 2 * (q * step) + step ∨ 2 * (q * step) = 2 * y + step → q % 2 = 0

theorem Nearest.halfStep {num den step q : Nat} (hden : 0 < den)
    (h : Nearest num (den * step) q) : HalfStep step q (num / den) := by
  have hdenq : (0 : ℚ) < den := by exact_mod_cast hden
  obtain ⟨y, hy⟩ : ∃ y : ℚ, y = num / den := ⟨_, rfl⟩
  have hnum : (num : ℚ) = y * den := by rw [hy]; field_simp
  rw [← hy]
  have habove : (2 * num : ℚ) ≤ 2 * (q * (den * step)) + den * step := by exact_mod_cast h.above
  have hbelow : (2 * (q * (den * step)) : ℚ) ≤ 2 * num + den * step := by exact_mod_cast h.below
  have htie : (2 * num : ℚ) = 2 * (q * (den * step)) + den * step ∨
      (2 * (q * (den * step)) : ℚ) = 2 * num + den * step → q % 2 = 0 := by exact_mod_cast h.tie
  rw [hnum] at habove hbelow htie
  constructor
  · exact le_of_mul_le_mul_right (by linarith) hdenq
  · exact le_of_mul_le_mul_right (by linarith) hdenq
  · rintro (h | h)
    · exact htie (.inl (by linear_combination (den : ℚ) * h))
    · exact htie (.inr (by linear_combination (den : ℚ) * h))

/-- What is nearest in the steps of a binade is near, if the steps before the binade do not count. -/
theorem Split.near {shift q : Nat} {y : ℚ} (h : Split shift q) (hpos : 0 < shift * binade + q)
    (hy : HalfStep (2 ^ shift) q y) (hfull : shift ≠ 0 → binade * 2 ^ shift ≤ y) :
    Near (shift * binade + q) y := by
  have hunits := h.cast_units
  have hsucc : ((q + 1) * 2 ^ shift : ℚ) ≤ units (shift * binade + q + 1) := by
    exact_mod_cast h.le_units_succ
  have heven : q % 2 = 0 → (shift * binade + q) % 2 = 0 := by
    have hbinade : binade % 2 = 0 := rfl
    intro hq
    rw [Nat.add_mod, Nat.mul_mod, hbinade, hq]
    simp
  by_cases hfirst : shift ≠ 0 ∧ q = binade
  · -- At the start of a binade the size is not below the magnitude.
    have hge : (units (shift * binade + q) : ℚ) ≤ y := by
      rw [hunits, hfirst.2]
      exact hfull hfirst.1
    have hpred := units_pred_lt hpos
    refine ⟨by linarith, by linarith [hy.above], fun htie => ?_⟩
    rcases htie with htie | htie
    · linarith
    · exact heven (hy.tie (.inl (by linarith [hy.above])))
  · obtain ⟨r, rfl⟩ : ∃ r, q = r + 1 := by
      refine Nat.exists_eq_add_one.mpr (Nat.pos_of_ne_zero ?_)
      rintro rfl
      rcases h.ge with hge | rfl
      · exact absurd hge (by decide)
      · omega
    have hpred : (units (shift * binade + (r + 1) - 1) : ℚ) = r * 2 ^ shift := by
      rw [show shift * binade + (r + 1) - 1 = shift * binade + r by omega]
      exact (h.pred (not_and.mp hfirst)).cast_units
    push_cast at hunits hsucc
    have habove := hy.above
    have hbelow := hy.below
    have htie := hy.tie
    push_cast at habove hbelow htie
    refine ⟨by linarith, by linarith, fun h => ?_⟩
    rcases h with h | h
    · exact heven (htie (.inr (by linarith)))
    · exact heven (htie (.inl (by linarith)))

/-- The size is near the magnitude that as many steps lead to, were there no infinity. -/
theorem near_steps {num den : Nat} (hden : 0 < den)
    (hpos : 0 < shiftOf num den * binade + stepsOf num den) :
    Near (shiftOf num den * binade + stepsOf num den) (num / den : ℚ) := by
  have hnearest : Nearest num (den * 2 ^ shiftOf num den) (stepsOf num den) :=
    nearest_roundHalfEven (Nat.mul_pos hden (Nat.two_pow_pos _))
  have hhalf := hnearest.halfStep hden
  push_cast at hhalf
  refine (split_steps hden).near hpos hhalf fun hshift => ?_
  rw [le_div_iff₀ (by exact_mod_cast hden), mul_assoc, mul_comm _ (den : ℚ)]
  exact_mod_cast binade_le_of_shiftOf hden hshift

theorem near_of_roundUnits {num den m : Nat} (hden : 0 < den) (h : roundUnits num den = m)
    (hpos : 0 < m) (hfinite : m < infinite) : Near m (num / den : ℚ) := by
  have hm : m = shiftOf num den * binade + stepsOf num den := by
    rw [← h, roundUnits_eq] at hfinite ⊢
    omega
  rw [hm] at hpos ⊢
  exact near_steps hden hpos

/-! ## Decimals -/

def decimalSize (d : Nat) (k : Int) : ℚ := d * 10 ^ k * unitsOfOne

theorem scaleDown_div (num : Nat) {den : Nat} (hden : 0 < den) (k : Int) :
    0 < (scaleDown num den k).2 ∧
      ((scaleDown num den k).1 : ℚ) = num / (den * 10 ^ k) * (scaleDown num den k).2 := by
  have hdenq : (den : ℚ) ≠ 0 := by exact_mod_cast Nat.ne_of_gt hden
  have hten : (10 : ℚ) ^ k ≠ 0 := zpow_ne_zero k (by norm_num)
  unfold scaleDown
  split
  · next hk =>
    obtain ⟨n, rfl⟩ := Int.eq_ofNat_of_zero_le hk
    refine ⟨Nat.mul_pos hden (Nat.pow_pos (by decide)), ?_⟩
    simp only [Int.toNat_natCast, Nat.pow_eq, Nat.cast_mul, Nat.cast_pow, Nat.cast_ofNat,
      zpow_natCast] at hten ⊢
    field_simp
  · next hk =>
    obtain ⟨n, hn⟩ := Int.eq_ofNat_of_zero_le (show 0 ≤ -k by omega)
    obtain rfl : k = -n := by omega
    refine ⟨hden, ?_⟩
    simp only [neg_neg, Int.toNat_natCast, Nat.pow_eq, Nat.cast_mul, Nat.cast_pow, Nat.cast_ofNat,
      zpow_neg, zpow_natCast] at hten ⊢
    field_simp

section Scale

variable {num den d : Nat} {k : Int}

theorem scaleDown_le (hden : 0 < den) :
    (scaleDown num den k).1 ≤ d * (scaleDown num den k).2 ↔ (num : ℚ) ≤ d * 10 ^ k * den := by
  obtain ⟨hpos, hdiv⟩ := scaleDown_div num hden k
  have hposq : (0 : ℚ) < (scaleDown num den k).2 := by exact_mod_cast hpos
  have hstep : (0 : ℚ) < den * 10 ^ k := by positivity
  rw [← @Nat.cast_le ℚ, Nat.cast_mul, hdiv, mul_le_mul_iff_of_pos_right hposq,
    div_le_iff₀ hstep, mul_comm (den : ℚ), mul_assoc]

theorem le_scaleDown (hden : 0 < den) :
    d * (scaleDown num den k).2 ≤ (scaleDown num den k).1 ↔ d * 10 ^ k * den ≤ (num : ℚ) := by
  obtain ⟨hpos, hdiv⟩ := scaleDown_div num hden k
  have hposq : (0 : ℚ) < (scaleDown num den k).2 := by exact_mod_cast hpos
  have hstep : (0 : ℚ) < den * 10 ^ k := by positivity
  rw [← @Nat.cast_le ℚ, Nat.cast_mul, hdiv, mul_le_mul_iff_of_pos_right hposq,
    le_div_iff₀ hstep, mul_comm (den : ℚ), mul_assoc]

end Scale

theorem readsBack_iff {m : Nat} {k : Int} {d : Nat} :
    readsBack m k d = true ↔ Near m (decimalSize d k) := by
  have hden : 0 < 2 * unitsOfOne := Nat.mul_pos (by decide) unitsOfOne_pos
  have hsize : (d * 10 ^ k * (2 * unitsOfOne : ℕ) : ℚ) = 2 * decimalSize d k := by
    rw [decimalSize]
    push_cast
    ring
  have hlow : ∀ n : Nat, (scaleDown n (2 * unitsOfOne) k).1 ≤
      d * (scaleDown n (2 * unitsOfOne) k).2 ↔ (n : ℚ) ≤ 2 * decimalSize d k := fun n => by
    rw [scaleDown_le hden, hsize]
  have hhigh : ∀ n : Nat, d * (scaleDown n (2 * unitsOfOne) k).2 ≤
      (scaleDown n (2 * unitsOfOne) k).1 ↔ 2 * decimalSize d k ≤ (n : ℚ) := fun n => by
    rw [le_scaleDown hden, hsize]
  have hsnd : (scaleDown (units (m - 1) + units m) (2 * unitsOfOne) k).2 =
      (scaleDown (units m + units (m + 1)) (2 * unitsOfOne) k).2 := by
    unfold scaleDown
    split <;> rfl
  have hreads : readsBack m k d = true ↔
      if m % 2 = 0 then ((units (m - 1) + units m : ℕ) : ℚ) ≤ 2 * decimalSize d k ∧
        2 * decimalSize d k ≤ (units m + units (m + 1) : ℕ)
      else ((units (m - 1) + units m : ℕ) : ℚ) < 2 * decimalSize d k ∧
        2 * decimalSize d k < (units m + units (m + 1) : ℕ) := by
    rw [← not_le, ← not_le, ← hlow, ← hhigh, ← hlow, ← hhigh, hsnd, not_le, not_le]
    unfold readsBack
    simp only [hsnd]
    split <;> simp only [Bool.and_eq_true, decide_eq_true_eq]
  rw [hreads]
  push_cast
  constructor
  · intro h
    split at h
    · next heven => exact ⟨h.1, h.2, fun _ => heven⟩
    · exact ⟨h.1.le, h.2.le, fun htie => by rcases htie with htie | htie <;> linarith⟩
  · intro h
    split
    · exact ⟨h.low, h.high⟩
    · next hodd =>
      exact ⟨lt_of_le_of_ne h.low fun htie => hodd (h.tie (.inl htie)),
        lt_of_le_of_ne h.high fun htie => hodd (h.tie (.inr htie))⟩

/-! ## Grids -/

section Grids

variable {tie : Tie} {m g d : Nat} {k : Int}

theorem decimalSize_mono {d e : Nat} (h : d ≤ e) (k : Int) : decimalSize d k ≤ decimalSize e k := by
  have hde : (d : ℚ) ≤ e := by exact_mod_cast h
  have hten : (0 : ℚ) ≤ 10 ^ k := by positivity
  exact mul_le_mul_of_nonneg_right (mul_le_mul_of_nonneg_right hde hten) (Nat.cast_nonneg _)

theorem pos_of_near (hm : 0 < m) (h : Near m (decimalSize g k)) : 0 < g := by
  refine Nat.pos_of_ne_zero ?_
  rintro rfl
  have hlow := h.low
  have hunits := units_pred_lt hm
  have hnonneg : (0 : ℚ) ≤ units (m - 1) := Nat.cast_nonneg _
  simp only [decimalSize, Nat.cast_zero, zero_mul, mul_zero] at hlow
  linarith

theorem near_of_gridPoint? (h : gridPoint? tie m k = some g) : Near m (decimalSize g k) := by
  rw [← readsBack_iff]
  unfold gridPoint? at h
  dsimp only at h
  generalize (scaleDown (units m) unitsOfOne k).1 / (scaleDown (units m) unitsOfOne k).2 = q at h
  split at h
  · next hq hq' =>
    have heither : ∀ e, e = q ∨ e = q + 1 → readsBack m k e = true := by
      rintro e (rfl | rfl)
      · exact hq
      · exact hq'
    split at h
    · cases h
      exact hq
    · split at h
      · cases h
        exact hq'
      · cases tie
        · cases h
          exact hq'
        · cases h
          exact heither _ (by omega)
  · next hq _ =>
    cases h
    exact hq
  · next hq' =>
    cases h
    exact hq'
  · cases h

/-- If any point of a grid reads back, so does one of the two next to the size. -/
theorem exists_gridPoint? (hm : 0 < m) (h : Near m (decimalSize d k)) (tie : Tie) :
    ∃ g, gridPoint? tie m k = some g := by
  have hpos := (scaleDown_div (units m) unitsOfOne_pos k).1
  obtain ⟨q, hq⟩ : ∃ q, q = (scaleDown (units m) unitsOfOne k).1 /
      (scaleDown (units m) unitsOfOne k).2 := ⟨_, rfl⟩
  have hbelow : decimalSize q k ≤ units m :=
    (le_scaleDown unitsOfOne_pos).mp (hq ▸ Nat.div_mul_le_self _ _)
  have habove : (units m : ℚ) ≤ decimalSize (q + 1) k := by
    refine (scaleDown_le unitsOfOne_pos).mp (Nat.le_of_lt ?_)
    rw [hq, Nat.add_mul, Nat.one_mul]
    exact Nat.lt_div_mul_add hpos
  have hread : readsBack m k q = true ∨ readsBack m k (q + 1) = true := by
    rcases Nat.lt_or_ge q d with hd | hd
    · right
      exact readsBack_iff.mpr ((near_units hm).between h habove (decimalSize_mono hd k))
    · left
      exact readsBack_iff.mpr (h.between (near_units hm) (decimalSize_mono hd k) hbelow)
  unfold gridPoint?
  dsimp only
  rw [← hq]
  split
  · split
    · exact ⟨_, rfl⟩
    · split
      · exact ⟨_, rfl⟩
      · cases tie <;> exact ⟨_, rfl⟩
  · exact ⟨_, rfl⟩
  · exact ⟨_, rfl⟩
  · next hnone hnone' =>
    rcases hread with hread | hread
    · rw [hread] at hnone
      cases hnone
    · rw [hread] at hnone'
      cases hnone'

theorem firstGrid_spec {grids : Nat} {k₀ : Int} (hle : k₀ ≤ k) (hlt : k < k₀ + grids)
    (h : ∃ g, gridPoint? tie m k₀ = some g) :
    ∃ g k₁, firstGrid tie m grids k = ⟨g, k₁⟩ ∧ k₀ ≤ k₁ ∧ gridPoint? tie m k₁ = some g ∧
      ∀ k', k₁ < k' → k' ≤ k → gridPoint? tie m k' = none := by
  induction grids generalizing k with
  | zero => omega
  | succ grids ih =>
    unfold firstGrid
    cases hpoint : gridPoint? tie m k with
    | some g => exact ⟨g, k, rfl, hle, hpoint, fun k' hk hk' => absurd hk' (by omega)⟩
    | none =>
      have hne : k ≠ k₀ := by
        rintro rfl
        obtain ⟨g, hg⟩ := h
        rw [hpoint] at hg
        cases hg
      obtain ⟨g, k₁, hfirst, hk₁, hg, hnone⟩ := ih (k := k - 1) (by omega) (by omega)
      refine ⟨g, k₁, hfirst, hk₁, hg, fun k' hk hk' => ?_⟩
      rcases Int.lt_or_eq_of_le hk' with hk' | rfl
      · exact hnone k' hk (by omega)
      · exact hpoint

theorem decimalSize_finest (m : Nat) {n : Nat} (hn : n = 1074) :
    decimalSize (units m * 5 ^ n) (-n) = units m := by
  have hten : (10 : ℚ) ^ n = 5 ^ n * 2 ^ n := by
    rw [← mul_pow]
    norm_num
  rw [decimalSize, unitsOfOne_eq hn, zpow_neg, zpow_natCast, hten]
  push_cast
  field_simp

/-- The grid from which the search goes down. -/
def coarsest (m : Nat) : Nat := (Nat.toDigits 10 (units m / unitsOfOne)).length

/-- The shortest decimal is near the magnitude, and on no finer grid than any decimal that is. -/
theorem shortest_spec (hm : 0 < m) (hd : Near m (decimalSize d k)) (hk : k ≤ coarsest m)
    (tie : Tie) : ∃ g k₁, shortest tie m = ⟨g, k₁⟩ ∧ k ≤ k₁ ∧ Near m (decimalSize g k₁) ∧
      ∀ e k', k₁ < k' → k' ≤ coarsest m → ¬Near m (decimalSize e k') := by
  obtain ⟨n, hn⟩ : ∃ n : Nat, n = 1074 := ⟨_, rfl⟩
  -- The search does not go below its finest grid, where it finds the magnitude itself.
  obtain ⟨k₀, e, hle, hlow, hhigh, hnear⟩ : ∃ (k₀ : Int) (e : Nat), k ≤ k₀ ∧ -n ≤ k₀ ∧
      k₀ ≤ coarsest m ∧ Near m (decimalSize e k₀) := by
    rcases Int.le_total (-n) k with h | h
    · exact ⟨k, d, Int.le_refl k, h, hk, hd⟩
    · refine ⟨-n, units m * 5 ^ n, h, Int.le_refl _, by omega, ?_⟩
      rw [decimalSize_finest m hn]
      exact near_units hm
  have hsteps : (coarsest m : Int) < k₀ + (coarsest m + 1075 : ℕ) := by omega
  obtain ⟨g, k₁, hfirst, hk₁, hg, hnone⟩ :=
    firstGrid_spec hhigh hsteps (exists_gridPoint? hm hnear tie)
  refine ⟨g, k₁, hfirst, by omega, near_of_gridPoint? hg, fun e' k' hlt hle' hnear' => ?_⟩
  obtain ⟨g', hg'⟩ := exists_gridPoint? hm hnear' tie
  rw [hnone k' hlt hle'] at hg'
  cases hg'

end Grids

end TypedTables.Binary64
