import TypedTables.Proofs.Binary64.Nearest

/-!
# Numbers written out

A decimal that is written out with a point and no exponent is a numeral that denotes it. That of a double
is near it, so the numeral is rounded to the double again (`rounds_shortest`). Where its first digit stands
says which powers of ten the double reaches (`le_firstPlace_iff`).
-/

namespace TypedTables

open Text

/-! ## Digits -/

theorem Text.digitsValue_toDigits (n : Nat) : digitsValue (Nat.toDigits 10 n) = n :=
  Nat.ofDigitChars_toDigits (by decide) (by decide)

theorem Text.isDigit_of_mem_toDigits {n : Nat} {c : Char} (h : c ∈ Nat.toDigits 10 n) :
    c.isDigit = true :=
  Nat.isDigit_of_mem_toDigits (by decide) (by decide) h

theorem Text.isDigits_toDigits (n : Nat) : isDigits (Nat.toDigits 10 n) = true :=
  isDigits_iff.mpr ⟨Nat.toDigits_ne_nil, fun _ => isDigit_of_mem_toDigits⟩

theorem Text.digitsValue_replicate (n : Nat) : digitsValue (List.replicate n '0') = 0 := by
  induction n with
  | zero => rfl
  | succ n ih =>
    rw [List.replicate_succ', Binary64.digitsValue_append, ih]
    rfl

namespace Binary64

variable {x : Binary64} {m n g : Nat} {k p : Int} {y z : ℚ}

/-! ## Decimals written out -/

def Denotes (s : List Char) (size : ℚ) : Prop :=
  ∃ whole fraction, s = whole ++ pointed fraction ∧ isDigits whole = true ∧
    (∀ c ∈ fraction, c.isDigit = true) ∧ decimalValue whole fraction = size

theorem denotes_of_whole {ds : List Char} (hds : isDigits ds = true) : Denotes ds (digitsValue ds) :=
  ⟨ds, [], by simp [pointed], hds, by simp, by simp [decimalValue, digitsValue]⟩

theorem denotes_of_split {whole fraction : List Char} (hwhole : isDigits whole = true)
    (hfraction : ∀ c ∈ fraction, c.isDigit = true) (hne : fraction ≠ []) :
    Denotes (whole ++ '.' :: fraction)
      (digitsValue (whole ++ fraction) * 10 ^ (-fraction.length : Int)) :=
  ⟨whole, fraction, by rw [pointed_of_ne_nil hne], hwhole, hfraction, decimalValue_eq whole fraction⟩

/-- A decimal is denoted by what it is written out as. -/
theorem Decimal.denotes_positional (d : Decimal) :
    Denotes d.positional (d.digits * 10 ^ d.exponent) := by
  obtain ⟨g, k⟩ := d
  have hdigits := isDigits_iff.mp (isDigits_toDigits g)
  have hvalue := digitsValue_toDigits g
  unfold positional
  dsimp only
  generalize Nat.toDigits 10 g = ds at *
  have hzeros : ∀ n, ∀ c ∈ List.replicate n '0', c.isDigit = true := by
    intro n c hc
    rw [List.eq_of_mem_replicate hc]
    rfl
  split
  · next hk =>
    obtain ⟨n, rfl⟩ := Int.eq_ofNat_of_zero_le hk
    have hall : isDigits (ds ++ List.replicate n '0') = true := by
      refine isDigits_iff.mpr ⟨by simp [hdigits.1], fun c hc => ?_⟩
      exact (List.mem_append.mp hc).elim (hdigits.2 c) (hzeros n c)
    have hdenotes := denotes_of_whole hall
    rw [digitsValue_append, hvalue, digitsValue_replicate, List.length_replicate] at hdenotes
    simpa using hdenotes
  · next hk =>
    obtain ⟨n, hn⟩ := Int.eq_ofNat_of_zero_le (show 0 ≤ -k by omega)
    obtain rfl : k = -n := by omega
    simp only [neg_neg, Int.toNat_natCast]
    split
    · next hlt =>
      -- The point stands between the digits.
      have hlength : (ds.drop (ds.length - n)).length = n := by
        rw [List.length_drop]
        omega
      have hwhole : isDigits (ds.take (ds.length - n)) = true := by
        refine isDigits_iff.mpr ⟨?_, fun c hc => hdigits.2 c (List.mem_of_mem_take hc)⟩
        rw [← List.length_pos_iff, List.length_take]
        omega
      have hfraction : ∀ c ∈ ds.drop (ds.length - n), c.isDigit = true :=
        fun c hc => hdigits.2 c (List.mem_of_mem_drop hc)
      have hdenotes := denotes_of_split hwhole hfraction (List.length_pos_iff.mp (by omega))
      rwa [List.take_append_drop, hlength, hvalue] at hdenotes
    · next hge =>
      -- It stands before them, with zeros to fill the places.
      have hlength : (List.replicate (n - ds.length) '0' ++ ds).length = n := by
        rw [List.length_append, List.length_replicate]
        omega
      have hfraction : ∀ c ∈ List.replicate (n - ds.length) '0' ++ ds, c.isDigit = true :=
        fun c hc => (List.mem_append.mp hc).elim (hzeros _ c) (hdigits.2 c)
      have hzero : isDigits ['0'] = true := by decide
      have hdenotes := denotes_of_split hzero hfraction (by simp [hdigits.1])
      rw [hlength, ← List.append_assoc, digitsValue_append, hvalue,
        show ['0'] ++ List.replicate (n - ds.length) '0' = List.replicate (n - ds.length + 1) '0' from rfl,
        digitsValue_replicate] at hdenotes
      simpa using hdenotes

/-! ## Shortest decimals -/

theorem exists_shortest (hm : 0 < m) (tie : Tie) :
    ∃ g k, shortest tie m = ⟨g, k⟩ ∧ Near m (decimalSize g k) := by
  obtain ⟨n, hn⟩ : ∃ n : Nat, n = 1074 := ⟨_, rfl⟩
  have hnear : Near m (decimalSize (units m * 5 ^ n) (-n)) := by
    rw [decimalSize_finest m hn]
    exact near_units hm
  obtain ⟨g, k, hshortest, -, hg, -⟩ := shortest_spec hm hnear (by omega) tie
  exact ⟨g, k, hshortest, hg⟩

theorem rounds_shortest (hsign : x.negative = false) (hpos : 0 < x.magnitude)
    (hfinite : x.magnitude < infinite) (tie : Tie) :
    x.Rounds false ((shortest tie x.magnitude).digits * 10 ^ (shortest tie x.magnitude).exponent) := by
  obtain ⟨g, k, hshortest, hnear⟩ := exists_shortest hpos tie
  rw [hshortest]
  exact ⟨hsign, hnear.nearestTo (Nat.le_of_lt hfinite)⟩

theorem rounds_zero (hsign : x.negative = false) (hzero : x.magnitude = 0) : x.Rounds false 0 := by
  refine ⟨hsign, ?_⟩
  rw [hzero]
  exact nearestTo_zero (by simp)

theorem exists_denotes_toText (hsign : x.negative = false) (hfinite : x.magnitude < infinite) :
    ∃ size, Denotes x.toText size ∧ x.Rounds false size := by
  rw [toText_eq (Nat.le_of_lt hfinite), hsign, if_pos hfinite]
  rcases Nat.eq_zero_or_pos x.magnitude with hzero | hpos
  · rw [if_pos hzero]
    exact ⟨0, denotes_of_whole (by decide), rounds_zero hsign hzero⟩
  · rw [if_neg (Nat.ne_of_gt hpos)]
    exact ⟨_, (shortest .up x.magnitude).denotes_positional, rounds_shortest hsign hpos hfinite .up⟩

/-! ## First digits -/

/-- The power of ten that the first digit of a decimal stands for. -/
def Decimal.firstPlace (d : Decimal) : Int := d.exponent + ((Nat.toDigits 10 d.digits).length - 1)

theorem le_decimalSize_iff : decimalSize 1 p ≤ decimalSize g k ↔ (10 : ℚ) ^ p ≤ g * 10 ^ k := by
  have hone : (0 : ℚ) < unitsOfOne := by exact_mod_cast unitsOfOne_pos
  rw [decimalSize, decimalSize, Nat.cast_one, one_mul, mul_le_mul_iff_of_pos_right hone]

theorem Decimal.le_firstPlace_iff (hg : 0 < g) :
    p ≤ (Decimal.mk g k).firstPlace ↔ decimalSize 1 p ≤ decimalSize g k := by
  obtain ⟨l, hl⟩ : ∃ l, (Nat.toDigits 10 g).length = l + 1 :=
    Nat.exists_eq_add_one.mpr Nat.length_toDigits_pos
  have hhigh : g < 10 ^ (l + 1) :=
    (Nat.length_toDigits_le_iff (by decide) (Nat.succ_pos l)).mp (Nat.le_of_eq hl)
  have hlow : 10 ^ l ≤ g := by
    rcases Nat.eq_zero_or_pos l with rfl | hpos
    · exact hg
    · refine Nat.not_lt.mp fun hlt => ?_
      have := (Nat.length_toDigits_le_iff (by decide) hpos).mpr hlt
      omega
  have hten : ∀ i : Int, (0 : ℚ) < 10 ^ i := fun i => by positivity
  have hfirst : (Decimal.mk g k).firstPlace = k + l := by
    rw [firstPlace, hl]
    push_cast
    ring
  rw [hfirst, le_decimalSize_iff]
  constructor
  · intro hp
    calc (10 : ℚ) ^ p ≤ 10 ^ (k + l : Int) := zpow_le_zpow_right₀ (by norm_num) hp
      _ = 10 ^ l * 10 ^ k := by rw [zpow_add₀ (by norm_num), zpow_natCast, mul_comm]
      _ ≤ g * 10 ^ k := mul_le_mul_of_nonneg_right (by exact_mod_cast hlow) (hten k).le
  · intro hp
    refine Int.not_lt.mp fun hlt => ?_
    have hless : (g * 10 ^ k : ℚ) < 10 ^ p := by
      calc (g * 10 ^ k : ℚ) < 10 ^ (l + 1) * 10 ^ k :=
            mul_lt_mul_of_pos_right (by exact_mod_cast hhigh) (hten k)
        _ = 10 ^ (k + (l + 1 : ℕ) : Int) := by
            rw [zpow_add₀ (by norm_num), zpow_natCast, mul_comm]
        _ ≤ 10 ^ p := zpow_le_zpow_right₀ (by norm_num) (by push_cast; omega)
    exact absurd hp (not_le.mpr hless)

theorem Near.lt_of_lt (hy : Near m y) (hz : Near n z) (hmn : m < n) : y < z := by
  have hlow : (units m : ℚ) ≤ units (n - 1) := units_le_units (by omega)
  have hhigh : (units (m + 1) : ℚ) ≤ units n := units_le_units hmn
  have hyhigh := hy.high
  have hzlow := hz.low
  refine lt_of_le_of_ne (by linarith) fun hyz => ?_
  -- Both on one midpoint, the two magnitudes would be even neighbours.
  have heven := hy.tie (.inr (by linarith))
  have heven' := hz.tie (.inl (by linarith))
  have hnext : (units (m + 1 + 1) : ℚ) ≤ units n := units_le_units (by omega)
  have hlt := units_lt_succ (m + 1)
  linarith

/-- The shortest decimal of a double reaches a power of ten if the double reaches the one nearest to the
power. -/
theorem le_firstPlace_iff (hm : 0 < m) (hn : Near n (decimalSize 1 p))
    (hp : Near m (decimalSize 1 p) → p ≤ coarsest m) (tie : Tie) :
    p ≤ (shortest tie m).firstPlace ↔ n ≤ m := by
  obtain ⟨g, k, hshortest, hnear⟩ := exists_shortest hm tie
  rw [hshortest, Decimal.le_firstPlace_iff (pos_of_near hm hnear)]
  rcases Nat.lt_trichotomy m n with hmn | rfl | hmn
  · exact iff_of_false (not_le.mpr (hnear.lt_of_lt hn hmn)) (Nat.not_le.mpr hmn)
  · -- The power itself is near, so the shortest decimal lies on no finer grid.
    refine iff_of_true ?_ (Nat.le_refl _)
    obtain ⟨g', k', hshortest', hk, hnear', -⟩ := shortest_spec hm hn (hp hn) tie
    rw [hshortest] at hshortest'
    cases hshortest'
    have hone : (1 : ℚ) ≤ g := by exact_mod_cast pos_of_near hm hnear
    have hpow : (10 : ℚ) ^ p ≤ 10 ^ k := zpow_le_zpow_right₀ (by norm_num) hk
    rw [le_decimalSize_iff]
    calc (10 : ℚ) ^ p ≤ 10 ^ k := hpow
      _ ≤ g * 10 ^ k := le_mul_of_one_le_left (by positivity) hone
  · exact iff_of_true (hn.lt_of_lt hnear hmn).le (Nat.le_of_lt hmn)

end Binary64

end TypedTables
