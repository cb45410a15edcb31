import TypedTables.Value.Basic

/-!
# The natural order of values

Turning a comparison of two values round reverses it, whatever they are. Over all values the order is
not transitive, but it is over those of one column (`Value.IsOf`), where no type meets another and
every time and date can be read.
-/

namespace TypedTables

open Calendar

/-! ## Orders of contents -/

instance : Std.TransCmp ClockTime.compare :=
  inferInstanceAs (Std.TransCmp (compareLex (compareOn ClockTime.hour)
    (compareLex (compareOn ClockTime.minute) (compareOn ClockTime.second))))

instance : Std.TransCmp Date.compare :=
  inferInstanceAs (Std.TransCmp (compareLex (compareOn Date.year)
    (compareLex (compareOn Date.month) (compareOn Date.day))))

instance : Std.LawfulEqCmp ClockTime.compare where
  eq_of_compare {a b} h := by
    obtain ⟨_, _, _⟩ := a
    obtain ⟨_, _, _⟩ := b
    simpa [ClockTime.compare, compareLex, compareOn, Ordering.then_eq_eq] using h

instance : Std.LawfulEqCmp Date.compare where
  eq_of_compare {a b} h := by
    obtain ⟨_, _, _, _, _⟩ := a
    obtain ⟨_, _, _, _, _⟩ := b
    simpa [Date.compare, compareLex, compareOn, Ordering.then_eq_eq] using h

instance : Std.TransCmp Binary64.totalCompare :=
  inferInstanceAs (Std.TransCmp (compareOn Binary64.totalPlace))

namespace Value

section Read

variable {α : Type} {read? : String → Option α} {cmp : α → α → Ordering}

theorem compareRead_swap [Std.OrientedCmp cmp] (a b : String) :
    compareRead read? cmp a b = (compareRead read? cmp b a).swap := by
  have htext : compare a b = (compare b a).swap := Std.OrientedOrd.eq_swap
  unfold compareRead
  cases read? a with
  | none => cases read? b <;> exact htext
  | some x =>
    cases read? b with
    | none => exact htext
    | some y =>
      show cmp x y = (cmp y x).swap
      exact Std.OrientedCmp.eq_swap

/-- Texts that can all be read compare as what they are read as. -/
theorem compareRead_isLE_trans [Std.TransCmp cmp] {a b c : String}
    (ha : ∃ x, read? a = some x) (hb : ∃ x, read? b = some x) (hc : ∃ x, read? c = some x)
    (hab : (compareRead read? cmp a b).isLE = true)
    (hbc : (compareRead read? cmp b c).isLE = true) :
    (compareRead read? cmp a c).isLE = true := by
  obtain ⟨x, hx⟩ := ha
  obtain ⟨y, hy⟩ := hb
  obtain ⟨z, hz⟩ := hc
  simp only [compareRead, hx, hy, hz] at hab hbc ⊢
  exact Std.TransCmp.isLE_trans hab hbc

end Read

theorem totalCompare_swap (x y : Binary64) : x.totalCompare y = (y.totalCompare x).swap :=
  Std.OrientedCmp.eq_swap

theorem compare_swap (v w : Value) : v.compare w = (w.compare v).swap := by
  cases v <;> cases w
  case text.text a b => exact Std.OrientedOrd.eq_swap (a := a)
  case number.number x y => exact totalCompare_swap x y
  case number.integer x i => exact totalCompare_swap x _
  case integer.number i x => exact totalCompare_swap _ x
  case integer.integer i j => exact Std.OrientedOrd.eq_swap (a := i.toInt)
  case boolean.boolean a b => exact Std.OrientedOrd.eq_swap (a := a.toNat)
  case time.time a b => exact compareRead_swap a b
  case date.date a b => exact compareRead_swap a b
  -- An empty slot, or two types that share no column and go by their rank.
  all_goals rfl

/-- Null, or a value of the type, and one that can be read if it is a time or a date. -/
structure IsOf (type : ColumnType) (v : Value) : Prop where
  type : v = .null ∨ v.columnType? = some type
  time : ∀ s, v = .time s → ∃ t, ClockTime.read? s = some t
  date : ∀ s, v = .date s → ∃ t, Date.read? s = some t

theorem isOf_null (type : ColumnType) : IsOf type .null :=
  ⟨.inl rfl, by simp, by simp⟩

variable {type : ColumnType} {u v w : Value}

theorem ne_null_of_columnType? (h : v.columnType? = some type) : v ≠ .null := by
  rintro rfl
  cases h

theorem isOf_of_columnType? (h : v.columnType? = some type) (htime : type ≠ .time)
    (hdate : type ≠ .date) : v.IsOf type := by
  refine ⟨.inr h, ?_, ?_⟩
  · rintro s rfl
    exact absurd (Option.some.inj h).symm htime
  · rintro s rfl
    exact absurd (Option.some.inj h).symm hdate

theorem null_compare_isLE (v : Value) : (Value.compare .null v).isLE = true := by
  cases v <;> rfl

theorem eq_null_of_compare_isLE (h : (v.compare .null).isLE = true) : v = .null := by
  cases v <;> first | rfl | cases h

theorem compare_isLE_trans_of_some (hu : u.IsOf type) (hv : v.IsOf type) (hw : w.IsOf type)
    (htu : u.columnType? = some type) (htv : v.columnType? = some type)
    (htw : w.columnType? = some type) (huv : (u.compare v).isLE = true)
    (hvw : (v.compare w).isLE = true) : (u.compare w).isLE = true := by
  cases u <;> cases htu <;> cases v <;> cases htv <;> cases w <;> cases htw
  case text.refl.text.refl.text.refl => exact Std.TransOrd.isLE_trans huv hvw
  case number.refl.number.refl.number.refl =>
    simp only [Value.compare] at huv hvw ⊢
    exact Std.TransCmp.isLE_trans huv hvw
  case integer.refl.integer.refl.integer.refl => exact Std.TransOrd.isLE_trans huv hvw
  case boolean.refl.boolean.refl.boolean.refl => exact Std.TransOrd.isLE_trans huv hvw
  case time.refl.time.refl.time.refl =>
    exact compareRead_isLE_trans (hu.time _ rfl) (hv.time _ rfl) (hw.time _ rfl) huv hvw
  case date.refl.date.refl.date.refl =>
    exact compareRead_isLE_trans (hu.date _ rfl) (hv.date _ rfl) (hw.date _ rfl) huv hvw

theorem compare_isLE_trans (hu : u.IsOf type) (hv : v.IsOf type) (hw : w.IsOf type)
    (huv : (u.compare v).isLE = true) (hvw : (v.compare w).isLE = true) :
    (u.compare w).isLE = true := by
  rcases hw.type with rfl | htw
  · have hv0 := eq_null_of_compare_isLE hvw
    rwa [hv0] at huv
  · rcases hv.type with rfl | htv
    · have hu0 := eq_null_of_compare_isLE huv
      rwa [hu0]
    · rcases hu.type with rfl | htu
      · exact null_compare_isLE w
      · exact compare_isLE_trans_of_some hu hv hw htu htv htw huv hvw

/-- The values of one type are totally preordered. -/
instance transCmp_compare (type : ColumnType) :
    Std.TransCmp fun v w : { v : Value // v.IsOf type } => v.1.compare w.1 where
  eq_swap := compare_swap ..
  isLE_trans {u v w} := compare_isLE_trans u.2 v.2 w.2

end Value

end TypedTables
