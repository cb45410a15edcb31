import TypedTables.Json.Printer
import TypedTables.Proofs.Binary64.Positional

/-!
# JSON texts of numbers

A whole number is written as its digits, and a double as a numeral that is rounded to it again, as long as
it is not less than `10^-5` and less than `10^16` (`Binary64.WrittenOut`). Any other double has an exponent.
-/

namespace TypedTables

open Text

namespace Binary64

variable {x : Binary64} {s : List Char} {size : ℚ} {m : Nat} {tie : Tie}

/-- The double is zero, or between the doubles nearest to `10^-5` and `10^16`, the first included. -/
def WrittenOut (x : Binary64) : Prop :=
  x.magnitude = 0 ∨
    (ofDecimal false 1 (-5)).magnitude ≤ x.magnitude ∧ x.magnitude < (ofDecimal false 1 16).magnitude

instance (x : Binary64) : Decidable x.WrittenOut :=
  inferInstanceAs (Decidable (_ ∨ _ ∧ _))

/-! ## Exponents -/

theorem near_powerOfTen {p : Int} (hlow : -340 ≤ p) (hhigh : p ≤ 310)
    (hpos : 0 < (ofDecimal false 1 p).magnitude) (hfinite : (ofDecimal false 1 p).magnitude < infinite) :
    Near (ofDecimal false 1 p).magnitude (decimalSize 1 p) := by
  have hlog : (1 : Nat).log2 = 0 := by decide
  rcases Int.le_total 0 p with hp | hp
  · obtain ⟨n, rfl⟩ := Int.eq_ofNat_of_zero_le hp
    have hratio : ofDecimal false 1 n = ofRatio false (10 ^ n) 1 := by
      rw [ofDecimal, if_neg Nat.one_ne_zero, if_neg (by omega), if_neg (by omega), if_pos hp]
      simp
    have hsize : decimalSize 1 n = ((10 ^ n * unitsOfOne : ℕ) : ℚ) / (1 : ℕ) := by
      rw [decimalSize_one]
      push_cast
      rw [div_one]
    rw [hratio, ofRatio] at hpos hfinite ⊢
    rw [hsize]
    exact near_of_roundUnits Nat.one_pos rfl hpos hfinite
  · obtain ⟨n, hn⟩ := Int.eq_ofNat_of_zero_le (show 0 ≤ -p by omega)
    obtain rfl : p = -n := by omega
    have hratio := (ofDecimal_down false 1 n).resolve_left fun hzero => by
      rw [hzero] at hpos
      exact absurd hpos (by decide)
    rw [hratio, ofRatio] at hpos hfinite ⊢
    rw [decimalSize_neg]
    exact near_of_roundUnits (Nat.pow_pos (by decide)) rfl hpos hfinite

/-- The first digit stands where JSON writes no exponent. -/
theorem writtenOut_iff (hx : 0 < x.magnitude) (tie : Tie) :
    x.WrittenOut ↔ -5 ≤ (shortest tie x.magnitude).firstPlace ∧
      (shortest tie x.magnitude).firstPlace ≤ 15 := by
  have hlow : -5 ≤ (shortest tie x.magnitude).firstPlace ↔ _ :=
    le_firstPlace_iff hx (near_powerOfTen (by decide) (by decide) (by decide +kernel) (by decide +kernel))
      (fun _ => by omega) tie
  have hhigh : 16 ≤ (shortest tie x.magnitude).firstPlace ↔ _ :=
    le_firstPlace_iff hx (near_powerOfTen (by decide) (by decide) (by decide +kernel) (by decide +kernel))
      (fun h => by exact_mod_cast le_coarsest (w := 16) hx h) tie
  rw [WrittenOut, hlow, ← Nat.not_le, ← hhigh]
  omega

/-! ## Texts -/

theorem Denotes.withFraction (h : Denotes s size) :
    Denotes (if s.contains '.' then s else s ++ ['.', '0']) size := by
  obtain ⟨whole, fraction, rfl, hwhole, hfraction, hsize⟩ := h
  split
  · exact ⟨whole, fraction, rfl, hwhole, hfraction, hsize⟩
  · next hpoint =>
    obtain rfl : fraction = [] := by
      refine Classical.byContradiction fun hne => hpoint ?_
      rw [pointed_of_ne_nil hne]
      simp
    have hzero : decimalValue whole ['0'] = decimalValue whole [] := by
      simp [decimalValue, digitsValue]
    exact ⟨whole, ['0'], by simp [pointed], hwhole, by simp, hzero.trans hsize⟩

theorem Denotes.e_not_mem (h : Denotes s size) : 'e' ∉ s := by
  obtain ⟨whole, fraction, rfl, hwhole, hfraction, -⟩ := h
  intro he
  rcases List.mem_append.mp he with he | he
  · exact absurd ((isDigits_iff.mp hwhole).2 _ he) (by decide)
  · rcases mem_of_mem_pointed he with he | he
    · exact absurd he (by decide)
    · exact absurd (hfraction _ he) (by decide)

/-- A double without an exponent is written as a numeral that is rounded to it. -/
theorem exists_denotes_toJsonText (hsign : x.negative = false) (hfinite : x.magnitude < infinite)
    (hx : x.WrittenOut) : ∃ size, Denotes x.toJsonText size ∧ x.Rounds false size := by
  rcases Nat.eq_zero_or_pos x.magnitude with hzero | hpos
  · refine ⟨0, ?_, rounds_zero hsign hzero⟩
    rw [toJsonText, hsign, if_pos hzero]
    exact ⟨['0'], ['0'], rfl, by decide, by simp, by simp [decimalValue, digitsValue]⟩
  · obtain ⟨hlow, hhigh⟩ := (writtenOut_iff hpos .even).mp hx
    rw [Decimal.firstPlace] at hlow hhigh
    refine ⟨_, ?_, rounds_shortest hsign hpos hfinite .even⟩
    have hdenotes := (shortest .even x.magnitude).denotes_positional.withFraction
    simpa [toJsonText, hsign, Nat.ne_of_gt hpos, hlow, hhigh] using hdenotes

theorem e_mem_toJsonText (hx : ¬x.WrittenOut) : 'e' ∈ x.toJsonText := by
  have hpos : 0 < x.magnitude := Nat.pos_of_ne_zero fun hzero => hx (.inl hzero)
  have hother := mt (writtenOut_iff hpos .even).mpr hx
  rw [Decimal.firstPlace] at hother
  have hbody : ∀ body : List Char, 'e' ∈ body → 'e' ∈ if x.negative then '-' :: body else body := by
    intro body hbody
    split
    · exact List.mem_cons_of_mem _ hbody
    · exact hbody
  unfold toJsonText
  dsimp only
  refine hbody _ ?_
  rw [if_neg (by omega), if_neg (by simpa using hother)]
  simp

end Binary64

theorem Json.Number.toList_toString (n : Number) : (toString n).toList = n.toText :=
  String.toList_ofList

theorem Json.Number.denotes_toText_whole (n : Nat) :
    Binary64.Denotes (Number.whole n).toText n := by
  have hdenotes := Binary64.denotes_of_whole (isDigits_toDigits n)
  rw [digitsValue_toDigits] at hdenotes
  have htext : (Number.whole n).toText = Nat.toDigits 10 n := by
    rw [Number.toText]
    exact Nat.toList_repr
  rwa [htext]

end TypedTables
