import Mathlib.Algebra.Order.Ring.Int
import TypedTables.Value.Reader

/-!
# Lengths of displayed values

A value is displayed in no more characters than the text has that it is read from, unless it is a
number. A whole number and the next one differ in length by one character at most.
-/

namespace TypedTables

open Text

/-! ## Digits -/

theorem digit_le {c : Char} (h : c.isDigit = true) : c.toNat - '0'.toNat ≤ 9 := by
  simp only [Char.isDigit, Bool.and_eq_true, decide_eq_true_eq] at h
  have hle : c.toNat ≤ 57 := UInt32.le_iff_toNat_le.mp h.2
  have hzero : '0'.toNat = 48 := rfl
  omega

theorem digitsValue_lt (ds : List Char) (hds : ds.all Char.isDigit = true) :
    digitsValue ds < 10 ^ ds.length := by
  have hfold : ∀ n, ds.foldl (fun n d => 10 * n + (d.toNat - '0'.toNat)) n <
      (n + 1) * 10 ^ ds.length := by
    induction ds with
    | nil => simp
    | cons d ds ih =>
      intro n
      simp only [List.all_cons, Bool.and_eq_true] at hds
      have hdigit : d.toNat - '0'.toNat ≤ 9 := digit_le hds.1
      have hrest := ih hds.2 (10 * n + (d.toNat - '0'.toNat))
      rw [List.foldl_cons, List.length_cons, Nat.pow_succ]
      calc _ < (10 * n + (d.toNat - '0'.toNat) + 1) * 10 ^ ds.length := hrest
        _ ≤ ((n + 1) * 10) * 10 ^ ds.length := Nat.mul_le_mul_right _ (by omega)
        _ = (n + 1) * (10 ^ ds.length * 10) := by rw [Nat.mul_assoc, Nat.mul_comm 10]
  simpa [digitsValue] using hfold 0

theorem length_repr_digitsValue_le {ds : List Char} (hds : isDigits ds = true) :
    (digitsValue ds).repr.length ≤ ds.length := by
  simp only [isDigits, Bool.and_eq_true, Bool.not_eq_true', List.isEmpty_eq_false_iff] at hds
  exact (Nat.length_repr_le_iff (List.length_pos_iff.mpr hds.1)).mpr (digitsValue_lt ds hds.2)

/-! ## Whole numbers -/

theorem length_toString_int (n : Int) :
    (toString n).length = (if n < 0 then 1 else 0) + n.natAbs.repr.length := by
  cases n with
  | ofNat n =>
    rw [if_neg (by simp), Nat.zero_add]
    rfl
  | negSucc n =>
    rw [if_pos (Int.negSucc_lt_zero n)]
    show ("-" ++ (n + 1).repr).length = 1 + (n + 1).repr.length
    rw [String.length_append]
    rfl

theorem length_splitSign (s : List Char) :
    (if (splitSign s).1 then 1 else 0) + (splitSign s).2.length ≤ s.length := by
  unfold splitSign
  split
  · simp [Nat.add_comm]
  · simp
  · simp

theorem length_toString_readSigned? {s : List Char} {n : Int} (h : readSigned? s = some n) :
    (toString n).length ≤ s.length := by
  have hsplit := length_splitSign s
  unfold readSigned? at h
  generalize splitSign s = split at h hsplit
  obtain ⟨negative, ds⟩ := split
  dsimp only at h hsplit
  split at h
  · next hds =>
    cases h
    have hdigits := length_repr_digitsValue_le hds
    have hsize : (if negative then -(digitsValue ds : Int) else digitsValue ds).natAbs =
        digitsValue ds := by cases negative <;> simp
    have hsign : (if (if negative then -(digitsValue ds : Int) else digitsValue ds) < 0 then 1
        else 0) ≤ if negative then 1 else 0 := by
      cases negative with
      | false => simp
      | true => simp; split <;> omega
    rw [length_toString_int, hsize]
    omega
  · cases h

/-- A whole number that is read is displayed without its plus and the zeros before it. -/
theorem length_toString_readInt64? {s : List Char} {i : Int64} (h : readInt64? s = some i) :
    (toString i.toInt).length ≤ s.length := by
  obtain ⟨n, hn, h⟩ := Option.bind_eq_some_iff.mp h
  split at h
  · next hrange =>
    cases h
    have hmin : Int64.minValue.toInt = -2 ^ 63 := rfl
    have hmax : Int64.maxValue.toInt = 2 ^ 63 - 1 := rfl
    rw [Int64.toInt_ofInt_of_le (by omega) (by omega)]
    exact length_toString_readSigned? hn
  · cases h

/-- The next whole number is displayed in as many characters, unless it is a power of ten. -/
theorem length_toString_succ {n : Int} {k : Nat} (hk : 0 < k) (h : (toString n).length ≤ k) :
    (toString (n + 1)).length ≤ k ∨ n + 1 = 10 ^ k := by
  rw [length_toString_int] at h ⊢
  rcases Int.lt_or_le n 0 with hneg | hpos
  · left
    rw [if_pos hneg] at h
    have hless : (n + 1).natAbs ≤ n.natAbs := by omega
    by_cases hzero : n + 1 = 0
    · rw [hzero]
      exact Nat.le_trans (Nat.le_refl 1) hk
    · have hrepr : (n + 1).natAbs.repr.length ≤ k - 1 := by
        have hdigits : 0 < n.natAbs.repr.length := Nat.length_repr_pos
        rw [Nat.length_repr_le_iff (by omega)]
        refine Nat.lt_of_le_of_lt hless ?_
        rw [← Nat.length_repr_le_iff (by omega)]
        omega
      rw [if_pos (by omega)]
      omega
  · rw [if_neg (by omega), Nat.zero_add] at h ⊢
    rw [Nat.length_repr_le_iff hk] at h ⊢
    rcases Nat.lt_or_ge (n + 1).natAbs (10 ^ k) with hlt | hge
    · exact .inl hlt
    · right
      have hsize : ((10 ^ k : Nat) : Int) = 10 ^ k := Int.natCast_pow 10 k
      omega

namespace Value

theorem length_display_of_read? {type : ColumnType} {text : String} {v : Value}
    (h : read? type text = some v) (htype : type ≠ .number) : v.display.length ≤ text.length := by
  cases type with
  | text =>
    cases h
    exact Nat.le_refl _
  | number => exact absurd rfl htype
  | integer =>
    obtain ⟨i, hi, rfl⟩ := Option.map_eq_some_iff.mp h
    have := length_toString_readInt64? hi
    rwa [String.length_toList] at this
  | boolean =>
    obtain ⟨b, hb, rfl⟩ := Option.map_eq_some_iff.mp h
    unfold readBool? at hb
    split at hb
    · next htrue =>
      cases hb
      rw [beq_iff_eq.mp htrue]
      exact Nat.le_refl _
    · split at hb
      · next hfalse =>
        cases hb
        rw [beq_iff_eq.mp hfalse]
        exact Nat.le_refl _
      · cases hb
  | time =>
    obtain ⟨_, -, rfl⟩ := Option.map_eq_some_iff.mp h
    exact Nat.le_refl _
  | date =>
    obtain ⟨_, -, rfl⟩ := Option.map_eq_some_iff.mp h
    exact Nat.le_refl _

end Value

end TypedTables
