import TypedTables.Proofs.Condition.Ordering

/-!
# Conditions on whole numbers

A numeral without a fraction is read as the nearest double, and so is a stored whole number where a
condition compares the two. Rounding keeps the order, so the comparison is that of the whole numbers,
unless two different ones become one double (`Binary64.Merged`). These are not below `2^53`.
-/

namespace TypedTables

open Text

namespace Binary64

/-- Different whole numbers of which the same double is nearest. -/
structure Merged (i k : Int) : Prop where
  different : i ≠ k
  rounded : ∃ x : Binary64, x.Rounds (decide (i < 0)) i.natAbs ∧ x.Rounds (decide (k < 0)) k.natAbs

variable {i k : Int} {x y : Binary64}

theorem merged_iff : Merged i k ↔ i ≠ k ∧ ofInt i = ofInt k := by
  constructor
  · rintro ⟨hne, x, hi, hk⟩
    exact ⟨hne, ((rounds_ofInt i).unique hi).trans (hk.unique (rounds_ofInt k))⟩
  · rintro ⟨hne, heq⟩
    exact ⟨hne, ofInt i, rounds_ofInt i, heq ▸ rounds_ofInt k⟩

/-- Only the zeros share a place. -/
theorem eq_of_place_eq (h : x.place = y.place) (hx : x.magnitude ≠ 0) : x = y := by
  have hmagnitude : x.magnitude = y.magnitude := by rw [← natAbs_place, h, natAbs_place]
  obtain ⟨sign, magnitude, lt⟩ := x
  obtain ⟨sign', magnitude', lt'⟩ := y
  obtain rfl : magnitude = magnitude' := hmagnitude
  have hpos : magnitude ≠ 0 := hx
  cases sign <;> cases sign' <;> simp only [place, Bool.false_eq_true, if_true, if_false] at h <;>
    first | rfl | omega

theorem place_ofInt_ne (hne : i ≠ k) (h : ¬Merged i k) : (ofInt i).place ≠ (ofInt k).place := by
  intro hplace
  by_cases hzero : (ofInt i).magnitude = 0
  · have hzero' : (ofInt k).magnitude = 0 := by rw [← natAbs_place, ← hplace, natAbs_place, hzero]
    exact hne ((eq_zero_of_magnitude_ofInt hzero).trans (eq_zero_of_magnitude_ofInt hzero').symm)
  · exact h (merged_iff.mpr ⟨hne, eq_of_place_eq hplace hzero⟩)

/-- As doubles, whole numbers compare exactly unless they are merged. -/
theorem compare_place_ofInt (h : ¬Merged i k) :
    compare (ofInt i).place (ofInt k).place = compare i k := by
  rcases Int.lt_trichotomy i k with hik | rfl | hik
  · have hle := place_ofInt_mono (Int.le_of_lt hik)
    have hne := place_ofInt_ne (by omega) h
    rw [Int.compare_eq_lt.mpr hik, Int.compare_eq_lt.mpr (by omega)]
  · rw [Int.compare_eq_eq.mpr rfl, Int.compare_eq_eq.mpr rfl]
  · have hle := place_ofInt_mono (Int.le_of_lt hik)
    have hne := place_ofInt_ne (by omega) h
    rw [Int.compare_eq_gt.mpr hik, Int.compare_eq_gt.mpr (by omega)]

theorem Merged.wholeLimit_le (h : Merged i k) : wholeLimit ≤ i.natAbs ∧ wholeLimit ≤ k.natAbs := by
  obtain ⟨hne, heq⟩ := merged_iff.mp h
  constructor
  · by_contra hi
    exact hne (eq_of_place_ofInt_eq (by omega) (congrArg place heq))
  · by_contra hk
    exact hne (eq_of_place_ofInt_eq (by omega) (congrArg place heq.symm)).symm

end Binary64

/-! ## Numerals without a fraction -/

def wholeValue (negative : Bool) (ds : List Char) : Int :=
  if negative then -(digitsValue ds : Int) else digitsValue ds

variable {negative : Bool} {ds : List Char} {x : Binary64}

/-- The place of a numeral is that of the whole number, even if it is the zero with a minus. -/
theorem Binary64.Rounds.place_eq (h : x.Rounds negative (digitsValue ds)) :
    x.place = (ofInt (wholeValue negative ds)).place := by
  have hsize : (wholeValue negative ds).natAbs = digitsValue ds := by
    unfold wholeValue
    cases negative <;> simp
  have hrounds := rounds_ofInt (wholeValue negative ds)
  rw [hsize] at hrounds
  have hmagnitude : x.magnitude = (ofInt (wholeValue negative ds)).magnitude :=
    Nat.le_antisymm (hrounds.nearest.le_of_nearestTo h.nearest)
      (h.nearest.le_of_nearestTo hrounds.nearest)
  rw [place, place, h.sign, hrounds.sign, hmagnitude]
  by_cases hzero : (ofInt (wholeValue negative ds)).magnitude = 0
  · simp [hzero]
  · have hvalue : wholeValue negative ds ≠ 0 := by
      intro hvalue
      rw [hvalue] at hzero
      exact hzero (by decide)
    cases negative with
    | false => simp [wholeValue]
    | true =>
      have hneg : wholeValue true ds < 0 := by
        rw [wholeValue, if_pos rfl] at hvalue ⊢
        omega
      simp [hneg]

/-- A numeral without a fraction compares with whole numbers as the whole number does that it denotes,
both taken as doubles. -/
theorem Literal.exists_compareWith?_integer (negative : Bool) (hds : isDigits ds = true) :
    ∃ l, read? (signOf negative ++ ds) = some l ∧ ∀ i : Int64, l.compareWith? (.integer i) =
      some (compare (Binary64.ofInt i.toInt).place
        (Binary64.ofInt (wholeValue negative ds)).place) := by
  obtain ⟨x, hread⟩ : ∃ x, Binary64.read? (signOf negative ++ ds ++ pointed []) = some x :=
    ⟨_, Binary64.read?_numeral hds rfl⟩
  have hrounds := Binary64.rounds_of_numeral hds rfl hread
  have hliteral := read?_eq_some_iff.mpr (Writes.number hds (List.forall_mem_nil _) hrounds)
  rw [pointed, List.append_nil] at hliteral
  refine ⟨_, hliteral, fun i => ?_⟩
  have hvalue : Binary64.decimalValue ds [] = digitsValue ds := by
    simp [Binary64.decimalValue, digitsValue]
  rw [hvalue] at hrounds
  have hx : x.isNaN = false := Binary64.isNaN_of_le hrounds.nearest.le
  have hi : (Binary64.ofInt i.toInt).isNaN = false :=
    Binary64.isNaN_of_le (Binary64.rounds_ofInt i.toInt).nearest.le
  rw [compareWith?, toNumber?, Option.bind_some, Binary64.compare?, hx, hi, hrounds.place_eq,
    Bool.or_self, if_neg Bool.false_ne_true]

namespace Condition

open Binary64

/-- A condition on a whole number with a numeral that has no fraction compares the two whole numbers,
unless they are merged. Then it takes them for equal. -/
theorem holds_of_wholeNumber (negative : Bool) (hds : isDigits ds = true) :
    ∃ l, Literal.read? (signOf negative ++ ds) = some l ∧
      ∀ (i : Int64) (key : String) (k : Nat) (c : Comparator) (ask : Ordering → Bool) (row : Row),
        row[k]? = some (.integer i) → c.asks? = some ask →
        (¬Merged i.toInt (wholeValue negative ds) →
          (Condition.mk key k c l).holds row = ask (compare i.toInt (wholeValue negative ds))) ∧
        (Merged i.toInt (wholeValue negative ds) → (Condition.mk key k c l).holds row = ask .eq ∧
          2 ^ 53 ≤ i.toInt.natAbs ∧ 2 ^ 53 ≤ (wholeValue negative ds).natAbs) := by
  obtain ⟨l, hl, hcompare⟩ := Literal.exists_compareWith?_integer negative hds
  refine ⟨l, hl, fun i key k c ask row hrow hc => ?_⟩
  rw [holds_of_getElem? hrow (by simp), Comparator.holds_of_compareWith? hc (hcompare i)]
  constructor
  · intro h
    rw [compare_place_ofInt h]
  · intro h
    rw [(merged_iff.mp h).2, Int.compare_eq_eq.mpr rfl]
    exact ⟨rfl, h.wholeLimit_le⟩

/-- The first whole number that is no double is found equal to the one before it. -/
theorem holds_equal_neighbour : ∃ l, Literal.read? "9007199254740993".toList = some l ∧
    (Condition.mk "n" 0 .equal l).holds [.integer 9007199254740992] = true ∧
    (9007199254740992 : Int64).toInt ≠ wholeValue false "9007199254740993".toList :=
  ⟨.number (ofInt 9007199254740993) "9007199254740993", by decide +kernel, by decide +kernel,
    by decide +kernel⟩

/-- Two whole numbers below a numeral, of which the second is merged with it. -/
theorem holds_of_wholeNumber_neighbours : ∃ l, Literal.read? "9007199254740993".toList = some l ∧
    (Condition.mk "n" 0 .less l).holds [.integer 9007199254740991] = true ∧
    (Condition.mk "n" 0 .less l).holds [.integer 9007199254740992] = false := by
  have hdigits : isDigits "9007199254740993".toList = true := by decide
  obtain ⟨l, hl, h⟩ := holds_of_wholeNumber false hdigits
  have hexact : ¬Merged (9007199254740991 : Int64).toInt
      (wholeValue false "9007199254740993".toList) :=
    fun hmerged => absurd hmerged.wholeLimit_le.1 (by decide +kernel)
  have hmerged : Merged (9007199254740992 : Int64).toInt
      (wholeValue false "9007199254740993".toList) :=
    merged_iff.mpr ⟨by decide +kernel, by decide +kernel⟩
  refine ⟨l, hl, ?_, ?_⟩
  · exact ((h _ "n" 0 .less _ _ rfl rfl).1 hexact).trans (by decide +kernel)
  · exact ((h _ "n" 0 .less _ _ rfl rfl).2 hmerged).1

end Condition

end TypedTables
