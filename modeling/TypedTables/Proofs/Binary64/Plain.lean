import TypedTables.Proofs.Binary64.Nearest

/-!
# Plain numbers

Of plain doubles, the numbers without a minus, the numeric order and the total order are the same
(`Plain.compare?_eq`). A text that begins with a decimal digit of any script denotes no other double, and
counting on from one does not lead to any.
-/

namespace TypedTables.Binary64

open Text

/-- A number, and one without a minus. -/
structure Plain (x : Binary64) : Prop where
  positive : x.negative = false
  isNumber : x.isNaN = false

variable {x y : Binary64}

/-! ## The two orders -/

theorem Plain.compare?_eq (hx : x.Plain) (hy : y.Plain) : x.compare? y = some (x.totalCompare y) := by
  have hplace : ∀ z : Binary64, z.Plain → z.place = z.totalPlace := by
    intro z hz
    rw [place, totalPlace, hz.positive]
    rfl
  rw [compare?, hx.isNumber, hy.isNumber, totalCompare, hplace x hx, hplace y hy]
  rfl

/-! ## Where plain numbers come from -/

theorem isNaN_of_le (h : x.magnitude ≤ infinite) : x.isNaN = false :=
  decide_eq_false (Nat.not_lt.mpr h)

theorem isNaN_ofDecimal (negative : Bool) (digits : Nat) (exponent : Int) :
    (ofDecimal negative digits exponent).isNaN = false := by
  apply isNaN_of_le
  unfold ofDecimal
  split
  · exact Nat.zero_le _
  · split
    · exact Nat.le_refl _
    · split
      · exact Nat.zero_le _
      · split <;> exact Nat.min_le_left ..

theorem plain_ofInt {n : Int} (h : 0 ≤ n) : (ofInt n).Plain where
  positive := decide_eq_false (by omega)
  isNumber := isNaN_of_le (Nat.min_le_left ..)

theorem Plain.addOne (h : x.Plain) : x.addOne.Plain := by
  unfold Binary64.addOne
  split
  · refine ⟨decide_eq_false ?_, isNaN_of_le (Nat.min_le_left ..)⟩
    have hunits : x.signedUnits = units x.magnitude := by
      rw [signedUnits, h.positive]
      rfl
    rw [hunits]
    omega
  · exact h

theorem plain_of_readDecimal? {s : List Char} (h : readDecimal? false s = some x) : x.Plain := by
  have hplain : ∀ whole fraction rest : List Char,
      (if whole.isEmpty && fraction.isEmpty then none
        else (readExponent? rest).map fun e =>
          ofDecimal false (digitsValue (whole ++ fraction)) (e.getD 0 - fraction.length)) = some x →
      x.Plain := by
    intro whole fraction rest h
    split at h
    · cases h
    · obtain ⟨e, -, rfl⟩ := Option.map_eq_some_iff.mp h
      exact ⟨negative_ofDecimal .., isNaN_ofDecimal ..⟩
  exact hplain _ _ _ h

theorem plain_of_read? {c : Char} {s : List Char} (hc : decimalDigits.has c = true)
    (h : read? (c :: s) = some x) : x.Plain := by
  rw [read?_of_splitSign (splitSign_of_decimalDigit hc) hc] at h
  exact plain_of_readDecimal? h

end TypedTables.Binary64
