import TypedTables.Proofs.Binary64.Nearest

/-!
# One more

What adding one makes of a double that is a whole number (`nextWhole?`). Up to `2^53` it is the next whole
number. From there on doubles are two apart or more, and one is half the way to the next double or less:
half the way is rounded to the even magnitude, so adding one leads two further or nowhere.
-/

namespace TypedTables.Binary64

/-- The double is this whole number, with whatever sign if that is zero. -/
structure IsWhole (x : Binary64) (n : Nat) : Prop where
  finite : x.isFinite = true
  size : x.signedUnits = n * unitsOfOne

/-- The whole number that adding one to the double of a whole number leads to, if to another one. -/
def nextWhole? (n : Nat) : Option Nat :=
  if n < wholeLimit then some (n + 1)
  else if n < 2 * wholeLimit ∧ n % 4 = 2 then some (n + 2)
  else none

variable {x y : Binary64} {m n i : Nat}

/-! ## Doubles that are whole numbers -/

theorem IsWhole.units_magnitude (h : x.IsWhole n) : units x.magnitude = n * unitsOfOne := by
  have hsize := h.size
  rw [← Nat.cast_mul, signedUnits] at hsize
  split at hsize <;> omega

theorem IsWhole.magnitude_lt (h : x.IsWhole n) : x.magnitude < infinite := of_decide_eq_true h.finite

theorem isWhole_of_units (hsign : x.negative = false) (hlt : x.magnitude < infinite)
    (hunits : units x.magnitude = n * unitsOfOne) : x.IsWhole n where
  finite := decide_eq_true hlt
  size := by
    rw [signedUnits, hsign, hunits]
    exact Nat.cast_mul n unitsOfOne

theorem IsWhole.negative_eq (h : x.IsWhole n) (hn : 0 < n) : x.negative = false := by
  have hsize := h.size
  have hpos : 0 < n * unitsOfOne := Nat.mul_pos hn unitsOfOne_pos
  rw [← Nat.cast_mul, signedUnits] at hsize
  cases hsign : x.negative with
  | false => rfl
  | true =>
    rw [hsign, if_pos rfl] at hsize
    omega

theorem IsWhole.eq_of_sameNumber (hx : x.IsWhole m) (hy : y.IsWhole n)
    (h : x.sameNumber y = true) : m = n := by
  obtain ⟨-, -, hplace⟩ := sameNumber_iff.mp h
  have hmagnitude : x.magnitude = y.magnitude := by rw [← natAbs_place, hplace, natAbs_place]
  have hunits := hx.units_magnitude
  rw [hmagnitude, hy.units_magnitude] at hunits
  exact (Nat.eq_of_mul_eq_mul_right unitsOfOne_pos hunits).symm

theorem IsWhole.sameNumber_self (h : x.IsWhole n) : x.sameNumber x = true := by
  have hnan : x.isNaN = false := decide_eq_false (Nat.not_lt.mpr (Nat.le_of_lt h.magnitude_lt))
  exact sameNumber_iff.mpr ⟨hnan, hnan, rfl⟩

/-! ## Adding one -/

theorem IsWhole.signedUnits_add (h : x.IsWhole n) :
    x.signedUnits + unitsOfOne = ((n + 1) * unitsOfOne : Nat) := by
  rw [h.size]
  push_cast
  ring

theorem IsWhole.negative_addOne (h : x.IsWhole n) : x.addOne.negative = false := by
  rw [addOne, if_pos h.finite]
  exact decide_eq_false (by rw [h.signedUnits_add]; omega)

theorem IsWhole.magnitude_addOne (h : x.IsWhole n)
    (hm : NearestTo ((n + 1) * unitsOfOne : ℚ) m) : x.addOne.magnitude = m := by
  have hround : x.addOne.magnitude = roundUnits ((n + 1) * unitsOfOne) 1 := by
    rw [addOne, if_pos h.finite]
    dsimp only
    rw [h.signedUnits_add, Int.natAbs_natCast]
  have hnearest : NearestTo (((n + 1) * unitsOfOne : Nat) / (1 : Nat)) _ :=
    nearestTo_roundUnits Nat.one_pos
  rw [Nat.cast_one, div_one] at hnearest
  push_cast at hnearest
  rw [hround]
  exact Nat.le_antisymm (hm.le_of_nearestTo hnearest) (hnearest.le_of_nearestTo hm)

theorem IsWhole.addOne_of_lt (h : x.IsWhole n) (hn : n < wholeLimit) : x.addOne.IsWhole (n + 1) := by
  obtain ⟨m, hlt, hunits⟩ := exists_units_of_le (show n + 1 ≤ wholeLimit from hn)
  have hnearest : NearestTo ((n + 1) * unitsOfOne : ℚ) m := by
    have hsize : ((n + 1) * unitsOfOne : ℚ) = units m := by
      rw [hunits]
      push_cast
      rfl
    rw [hsize]
    refine (near_units (Nat.pos_of_ne_zero ?_)).nearestTo (Nat.le_of_lt hlt)
    rintro rfl
    have hpos : 0 < (n + 1) * unitsOfOne := Nat.mul_pos (Nat.succ_pos n) unitsOfOne_pos
    rw [← hunits] at hpos
    exact absurd hpos (by decide)
  have hmagnitude := h.magnitude_addOne hnearest
  exact isWhole_of_units h.negative_addOne (by rwa [hmagnitude]) (by rw [hmagnitude, hunits])

/-! ## Beyond the limit -/

/-- From the limit on a whole number that is a double is so many steps of two or more. -/
structure InSteps (x : Binary64) (n shift q : Nat) : Prop where
  value : n = q * 2 ^ (shift + 1)
  lt : q < wholeLimit
  parity : x.magnitude % 2 = q % 2
  next : units (x.magnitude + 1) = (n + 2 ^ (shift + 1)) * unitsOfOne
  finite : shift = 0 → x.magnitude + 1 < infinite

theorem inSteps_of_split {shift q : Nat} (hmagnitude : x.magnitude = (1075 + shift) * binade + q)
    (hlt : q < 2 * binade) (hsplit : Split (1075 + shift) q) : x.InSteps (q * 2 ^ (shift + 1)) shift q where
  value := rfl
  lt := hlt
  parity := by
    have hbinade : binade % 2 = 0 := rfl
    rw [hmagnitude, Nat.add_mod, Nat.mul_mod, hbinade]
    simp
  next := by
    obtain ⟨k, hk⟩ : ∃ k, k = 1074 := ⟨_, rfl⟩
    have hnext : Split (1075 + shift) (q + 1) := ⟨hlt, hsplit.ge.imp_left Nat.le_succ_of_le⟩
    rw [hmagnitude, Nat.add_assoc, hnext.units_eq, unitsOfOne_eq hk,
      show 1075 + shift = (shift + 1) + k by omega, Nat.pow_add]
    ring
  finite hzero := by
    have hinf : 1075 * binade + 2 * binade < infinite := by decide
    rw [hmagnitude, hzero]
    omega

theorem IsWhole.exists_inSteps (h : x.IsWhole n) (hn : wholeLimit ≤ n) :
    ∃ shift q, x.InSteps n shift q := by
  obtain ⟨k, hk⟩ : ∃ k, k = 1074 := ⟨_, rfl⟩
  obtain ⟨shift, q, hmagnitude, hlt, hsplit⟩ := exists_split x.magnitude
  have hsize : q * 2 ^ shift = n * 2 ^ k := by
    rw [← unitsOfOne_eq hk, ← h.units_magnitude, hmagnitude, hsplit.units_eq]
  have hshift : k < shift := by
    by_contra hle
    have hpow : 2 ^ shift ≤ 2 ^ k := Nat.pow_le_pow_right (by decide) (Nat.not_lt.mp hle)
    have hqn : q < n := Nat.lt_of_lt_of_le hlt hn
    have hless : q * 2 ^ shift < n * 2 ^ k :=
      Nat.lt_of_lt_of_le (Nat.mul_lt_mul_of_pos_right hqn (Nat.two_pow_pos shift))
        (Nat.mul_le_mul_left n hpow)
    exact absurd hsize (Nat.ne_of_lt hless)
  obtain ⟨s, rfl⟩ : ∃ s, shift = 1075 + s := ⟨shift - 1075, by omega⟩
  refine ⟨s, q, ?_⟩
  rw [show 1075 + s = (s + 1) + k by omega, Nat.pow_add, ← Nat.mul_assoc] at hsize
  rw [← Nat.eq_of_mul_eq_mul_right (Nat.two_pow_pos k) hsize]
  exact inSteps_of_split hmagnitude hlt hsplit

/-- What is not further than the midpoint to the next magnitude is near, and on the midpoint only if the
magnitude is even. -/
theorem near_of_units_le {z : ℚ} (hm : 0 < m) (hlow : (units m : ℚ) ≤ z)
    (hhigh : 2 * z ≤ units m + units (m + 1)) (htie : 2 * z = units m + units (m + 1) → m % 2 = 0) :
    Near m z := by
  have hpred := units_pred_lt hm
  refine ⟨by linarith, hhigh, fun h => ?_⟩
  rcases h with h | h
  · linarith
  · exact htie h

theorem near_succ_of_midpoint {z : ℚ} (hz : 2 * z = units m + units (m + 1)) (hodd : m % 2 = 1) :
    Near (m + 1) z := by
  have hlt := units_lt_succ m
  have hnext := units_lt_succ (m + 1)
  refine ⟨?_, by linarith, fun _ => by omega⟩
  rw [Nat.add_sub_cancel, hz]

section Steps

variable {shift q : Nat}

theorem IsWhole.cast_units (h : x.IsWhole n) : (units x.magnitude : ℚ) = n * unitsOfOne := by
  rw [h.units_magnitude]
  exact Nat.cast_mul n unitsOfOne

theorem InSteps.cast_next (h : x.InSteps n shift q) :
    (units (x.magnitude + 1) : ℚ) = (n + 2 ^ (shift + 1)) * unitsOfOne := by
  rw [h.next]
  push_cast
  rfl

theorem IsWhole.magnitude_pos (h : x.IsWhole n) (hn : 0 < n) : 0 < x.magnitude := by
  refine Nat.pos_of_ne_zero fun hzero => ?_
  have hunits := h.units_magnitude
  have hpos : 0 < n * unitsOfOne := Nat.mul_pos hn unitsOfOne_pos
  rw [← hunits, hzero] at hpos
  exact absurd hpos (by decide)

theorem IsWhole.units_le (h : x.IsWhole n) : (units x.magnitude : ℚ) ≤ (n + 1) * unitsOfOne := by
  have hpos : (0 : ℚ) ≤ unitsOfOne := Nat.cast_nonneg _
  rw [h.cast_units]
  linarith

/-- With steps of two, one more is the midpoint to the next double. -/
theorem InSteps.midpoint (hsteps : x.InSteps n 0 q) (h : x.IsWhole n) :
    2 * ((n + 1) * unitsOfOne : ℚ) = units x.magnitude + units (x.magnitude + 1) := by
  rw [h.cast_units, hsteps.cast_next]
  ring

theorem InSteps.lt_midpoint (hsteps : x.InSteps n (shift + 1) q) (h : x.IsWhole n) :
    2 * ((n + 1) * unitsOfOne : ℚ) < units x.magnitude + units (x.magnitude + 1) := by
  have hpos : (0 : ℚ) < unitsOfOne := by exact_mod_cast unitsOfOne_pos
  have hstep : (4 : ℚ) ≤ 2 ^ (shift + 1 + 1) := by
    have hpow : 2 ^ 2 ≤ 2 ^ (shift + 1 + 1) := Nat.pow_le_pow_right (by decide) (by omega)
    exact_mod_cast hpow
  rw [h.cast_units, hsteps.cast_next]
  nlinarith

end Steps

theorem nextWhole?_eq_none (hn : wholeLimit ≤ n) (hother : ¬(n < 2 * wholeLimit ∧ n % 4 = 2)) :
    nextWhole? n = none := by
  rw [nextWhole?, if_neg (Nat.not_lt.mpr hn), if_neg hother]

/-- Beyond the limit one more is nearest to the same magnitude, or to the next one. -/
theorem IsWhole.near_of_le (h : x.IsWhole n) (hn : wholeLimit ≤ n) :
    (nextWhole? n = none ∧ Near x.magnitude ((n + 1) * unitsOfOne)) ∨
    (nextWhole? n = some (n + 2) ∧ Near (x.magnitude + 1) ((n + 1) * unitsOfOne) ∧
      x.magnitude + 1 < infinite ∧ units (x.magnitude + 1) = (n + 2) * unitsOfOne) := by
  have hpos := h.magnitude_pos (Nat.lt_of_lt_of_le (by decide) hn)
  obtain ⟨shift, q, hsteps⟩ := h.exists_inSteps hn
  have hvalue := hsteps.value
  have hlt := hsteps.lt
  have hparity := hsteps.parity
  cases shift with
  | zero =>
    have hmid := hsteps.midpoint h
    rcases Nat.mod_two_eq_zero_or_one q with heven | hodd
    · have hfour : n % 4 ≠ 2 := by
        clear hmid hsteps
        omega
      exact .inl ⟨nextWhole?_eq_none hn fun h => hfour h.2,
        near_of_units_le hpos h.units_le hmid.le fun _ => hparity.trans heven⟩
    · have hfour : n < 2 * wholeLimit ∧ n % 4 = 2 := by
        clear hmid hsteps
        omega
      refine .inr ⟨?_, near_succ_of_midpoint hmid (hparity.trans hodd), hsteps.finite rfl, hsteps.next⟩
      rw [nextWhole?, if_neg (Nat.not_lt.mpr hn), if_pos hfour]
  | succ shift =>
    have hless := hsteps.lt_midpoint h
    have hfour : n % 4 = 0 := by
      rw [hvalue, Nat.pow_succ, Nat.pow_succ, Nat.mul_assoc, ← Nat.mul_assoc]
      exact Nat.mul_mod_left _ 4
    exact .inl ⟨nextWhole?_eq_none hn (by omega),
      near_of_units_le hpos h.units_le hless.le fun htie => absurd htie (ne_of_lt hless)⟩

theorem IsWhole.addOne (h : x.IsWhole n) (hm : nextWhole? n = some m) : x.addOne.IsWhole m := by
  rcases Nat.lt_or_ge n wholeLimit with hn | hn
  · rw [nextWhole?, if_pos hn] at hm
    cases hm
    exact h.addOne_of_lt hn
  · rcases h.near_of_le hn with ⟨hnone, -⟩ | ⟨hsome, hnear, hlt, hunits⟩
    · rw [hnone] at hm
      cases hm
    · rw [hsome] at hm
      cases hm
      have hmagnitude := h.magnitude_addOne (hnear.nearestTo (Nat.le_of_lt hlt))
      exact isWhole_of_units h.negative_addOne (by rwa [hmagnitude]) (by rw [hmagnitude, hunits])

theorem IsWhole.addOne_eq_self (h : x.IsWhole n) (hnone : nextWhole? n = none) : x.addOne = x := by
  have hn : wholeLimit ≤ n := by
    refine Nat.not_lt.mp fun hn => ?_
    rw [nextWhole?, if_pos hn] at hnone
    cases hnone
  have hsign := h.negative_eq (Nat.lt_of_lt_of_le (by decide) hn)
  rcases h.near_of_le hn with ⟨-, hnear⟩ | ⟨hsome, -⟩
  · have hmagnitude := h.magnitude_addOne (hnear.nearestTo (Nat.le_of_lt h.magnitude_lt))
    exact eq_of_magnitude_eq (h.negative_addOne.trans hsign.symm) hmagnitude
  · rw [hsome] at hnone
    cases hnone

theorem nextWhole?_ne (h : nextWhole? n = some m) : m ≠ n := by
  unfold nextWhole? at h
  split at h
  · cases h
    omega
  · split at h
    · cases h
      omega
    · cases h

end TypedTables.Binary64
