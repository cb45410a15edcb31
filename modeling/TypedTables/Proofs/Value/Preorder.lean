import TypedTables.Proofs.Binary64.WholeNumbers
import TypedTables.Proofs.Database.Runs
import TypedTables.Proofs.Query.Sorted

/-!
# Where the natural order is a preorder

Two values are compared in the way that suits the two: integers exactly, but an integer and a number
as doubles; times as times, but as texts if one of them names no time. So the order is transitive on
some values unless there are three among them that are compared in different ways and do not fit
together (`Value.Tangle`). No such three are in one column of a table.
-/

namespace TypedTables

open Calendar

/-! ## Whole numbers as doubles -/

theorem Binary64.isLE_totalCompare_ofInt {i j : Int} (h : i ≤ j) :
    ((ofInt i).totalCompare (ofInt j)).isLE = true := by
  rw [totalCompare, Int.isLE_compare]
  simp only [totalPlace, negative_ofInt, decide_eq_true_eq]
  split
  · split
    · have := magnitude_ofInt_mono (i := j) (j := i) (by omega)
      omega
    · omega
  · next hi =>
    rw [if_neg (by omega)]
    have := magnitude_ofInt_mono (i := i) (j := j) (by omega)
    omega

namespace Value

/-! ## Values that do not fit together -/

/-- Between two texts that can be read lies, in the order of texts, one that cannot, and what the two
are read as does not come in the order of the texts. -/
structure Misplaced {α : Type} (read? : String → Option α) (cmp : α → α → Ordering)
    (a b c : String) : Prop where
  ends : ∃ x z, read? a = some x ∧ read? c = some z ∧ cmp x z ≠ .lt
  middle : read? b = none
  left : compare a b = .lt
  right : compare b c = .lt

/-- The first value is not above the second and the second not above the third, and yet the first is
not below the third: the outer two are compared in one way, and each of them with the middle one in
another. -/
inductive Tangle : Value → Value → Value → Prop where
  /-- Two different integers become one double, which is the number. -/
  | widened {i j : Int64} {x : Binary64} (less : i < j)
    (first : (Binary64.ofInt i.toInt).totalCompare x = .eq)
    (last : (Binary64.ofInt j.toInt).totalCompare x = .eq) :
    Tangle (.integer j) (.number x) (.integer i)
  | times {a b c : String} (h : Misplaced ClockTime.read? ClockTime.compare a b c) :
    Tangle (.time a) (.time b) (.time c)
  | dates {a b c : String} (h : Misplaced Date.read? Date.compare a b c) :
    Tangle (.date a) (.date b) (.date c)

/-- Among the values, what is not above a second one, which is not above a third, is not above the
third, and is below it if one of the two is below the next. -/
def Chains (vs : List Value) : Prop :=
  ∀ u ∈ vs, ∀ v ∈ vs, ∀ w ∈ vs, (u.compare v).isLE = true → (v.compare w).isLE = true →
    (u.compare w).isLE = true ∧ (u.compare v = .lt ∨ v.compare w = .lt → u.compare w = .lt)

instance : Std.OrientedCmp Value.compare := ⟨compare_swap ..⟩

theorem compare_self (v : Value) : v.compare v = .eq := Std.ReflCmp.compare_self

/-! ## Texts that can or cannot be read -/

section Read

variable {α : Type} {read? : String → Option α} {cmp : α → α → Ordering} {a b c : String}

theorem compareRead_of_left (h : read? a = none) (b : String) :
    compareRead read? cmp a b = compare a b := by
  rw [compareRead, h]

theorem compareRead_of_right (a : String) (h : read? b = none) :
    compareRead read? cmp a b = compare a b := by
  rw [compareRead, h]
  cases read? a <;> rfl

theorem compare_eq_lt_of_read? {x : α} (hle : (compare a b).isLE = true)
    (h : (read? a = some x ∧ read? b = none) ∨ (read? a = none ∧ read? b = some x)) :
    compare a b = .lt := by
  refine (Ordering.isLE_iff_eq_lt_or_eq_eq.mp hle).resolve_right fun heq => ?_
  obtain rfl := Std.compare_eq_iff_eq.mp heq
  rcases h with ⟨ha, hb⟩ | ⟨ha, hb⟩ <;> simp [ha] at hb

instance [Std.OrientedCmp cmp] : Std.OrientedCmp (compareRead read? cmp) := ⟨compareRead_swap ..⟩

/-- Not above goes on from text to text, unless two can be read and compare otherwise than texts. -/
theorem compareRead_isLE_trans_or [Std.TransCmp cmp] (hab : (compareRead read? cmp a b).isLE = true)
    (hbc : (compareRead read? cmp b c).isLE = true) :
    (compareRead read? cmp a c).isLE = true ∨ Misplaced read? cmp a b c ∨
      Misplaced read? cmp b c a ∨ Misplaced read? cmp c a b := by
  rw [or_iff_not_imp_left]
  intro hac
  have hca := Std.OrientedCmp.lt_of_not_isLE hac
  -- Three texts of which at most one can be read compare as texts, three that all can as what they
  -- are read as. So two can be read, and the third lies between them.
  cases ha : read? a with
  | none =>
    rw [compareRead_of_left ha] at hab hac
    rw [compareRead_of_right c ha] at hca
    cases hb : read? b with
    | none =>
      rw [compareRead_of_left hb] at hbc
      exact absurd (Std.TransOrd.isLE_trans hab hbc) hac
    | some y =>
      cases hc : read? c with
      | none =>
        rw [compareRead_of_right b hc] at hbc
        exact absurd (Std.TransOrd.isLE_trans hab hbc) hac
      | some z =>
        simp only [compareRead, hb, hc] at hbc
        exact .inr (.inr ⟨⟨z, y, hc, hb, Std.OrientedCmp.not_lt_of_isLE hbc⟩, ha, hca,
          compare_eq_lt_of_read? hab (.inr ⟨ha, hb⟩)⟩)
  | some x =>
    cases hb : read? b with
    | none =>
      rw [compareRead_of_right a hb] at hab
      rw [compareRead_of_left hb] at hbc
      cases hc : read? c with
      | none =>
        rw [compareRead_of_right a hc] at hac
        exact absurd (Std.TransOrd.isLE_trans hab hbc) hac
      | some z =>
        simp only [compareRead, ha, hc] at hca
        exact .inl ⟨⟨x, z, ha, hc, Std.OrientedCmp.not_lt_of_lt hca⟩, hb,
          compare_eq_lt_of_read? hab (.inl ⟨ha, hb⟩), compare_eq_lt_of_read? hbc (.inr ⟨hb, hc⟩)⟩
    | some y =>
      simp only [compareRead, ha, hb] at hab
      cases hc : read? c with
      | none =>
        rw [compareRead_of_right b hc] at hbc
        rw [compareRead_of_left hc] at hca
        exact .inr (.inl ⟨⟨y, x, hb, ha, Std.OrientedCmp.not_lt_of_isLE hab⟩, hc,
          compare_eq_lt_of_read? hbc (.inl ⟨hb, hc⟩), hca⟩)
      | some z =>
        simp only [compareRead, ha, hb, hc] at hbc hac
        exact absurd (Std.TransCmp.isLE_trans hab hbc) hac

theorem Misplaced.compareRead_eq (h : Misplaced read? cmp a b c) :
    compareRead read? cmp a b = .lt ∧ compareRead read? cmp b c = .lt ∧
      compareRead read? cmp a c ≠ .lt := by
  obtain ⟨x, z, ha, hc, hne⟩ := h.ends
  rw [compareRead_of_right a h.middle, compareRead_of_left h.middle]
  refine ⟨h.left, h.right, ?_⟩
  simp only [compareRead, ha, hc]
  exact hne

end Read

/-! ## Values of different kinds -/

variable {u v w : Value}

theorem compare_of_rank_ne (h : u.rank ≠ v.rank) : u.compare v = compare u.rank v.rank := by
  cases u <;> cases v <;> first | rfl | exact absurd rfl h

theorem rank_le_of_isLE (h : (u.compare v).isLE = true) : u.rank ≤ v.rank := by
  by_cases hrank : u.rank = v.rank
  · exact Nat.le_of_eq hrank
  · rw [compare_of_rank_ne hrank] at h
    exact Nat.isLE_compare.mp h

/-! ## Numbers and integers -/

theorem totalCompare_isLE_trans {x y z : Binary64} (hxy : (x.totalCompare y).isLE = true)
    (hyz : (y.totalCompare z).isLE = true) : (x.totalCompare z).isLE = true :=
  Std.TransCmp.isLE_trans hxy hyz

theorem isLE_widened {i j : Int64} (h : (compare i.toInt j.toInt).isLE = true) :
    ((Binary64.ofInt i.toInt).totalCompare (Binary64.ofInt j.toInt)).isLE = true :=
  Binary64.isLE_totalCompare_ofInt (Int.isLE_compare.mp h)

/-- A number between two integers as doubles is between them, unless they are the other way round and
all three are one double. -/
theorem compare_isLE_or_widened {i j : Int64} {x : Binary64}
    (hix : ((Binary64.ofInt i.toInt).totalCompare x).isLE = true)
    (hxj : (x.totalCompare (Binary64.ofInt j.toInt)).isLE = true) :
    (compare i.toInt j.toInt).isLE = true ∨ Tangle (.integer i) (.number x) (.integer j) := by
  rw [or_iff_not_imp_left, Int.isLE_compare]
  intro hij
  have hji : ((Binary64.ofInt j.toInt).totalCompare (Binary64.ofInt i.toInt)).isLE = true :=
    Binary64.isLE_totalCompare_ofInt (by omega)
  refine .widened (Int64.lt_iff_toInt_lt.mpr (by omega)) ?_ ?_
  · exact Std.OrientedCmp.isLE_antisymm (totalCompare_isLE_trans hji hix) hxj
  · exact Std.OrientedCmp.isLE_antisymm hix (totalCompare_isLE_trans hxj hji)

/-! ## All values -/

/-- Not above goes on from value to value, unless the three do not fit together. -/
theorem isLE_trans_or_tangle (huv : (u.compare v).isLE = true) (hvw : (v.compare w).isLE = true) :
    (u.compare w).isLE = true ∨ Tangle u v w ∨ Tangle v w u ∨ Tangle w u v := by
  have hle := rank_le_of_isLE huv
  have hle' := rank_le_of_isLE hvw
  by_cases hrank : u.rank = w.rank
  · have hrank' : u.rank = v.rank := by omega
    cases u <;> cases v <;> (try simp [rank] at hrank') <;> cases w <;> (try simp [rank] at hrank)
    case null.null.null => exact .inl rfl
    case text.text.text => exact .inl (Std.TransOrd.isLE_trans huv hvw)
    case boolean.boolean.boolean => exact .inl (Std.TransOrd.isLE_trans huv hvw)
    case time.time.time =>
      exact (compareRead_isLE_trans_or huv hvw).imp_right
        (Or.imp .times (Or.imp .times .times))
    case date.date.date =>
      exact (compareRead_isLE_trans_or huv hvw).imp_right
        (Or.imp .dates (Or.imp .dates .dates))
    case integer.integer.integer => exact .inl (Std.TransOrd.isLE_trans huv hvw)
    case integer.number.integer => exact (compare_isLE_or_widened huv hvw).imp_right .inl
    case integer.integer.number => exact .inl (totalCompare_isLE_trans (isLE_widened huv) hvw)
    case number.integer.integer => exact .inl (totalCompare_isLE_trans huv (isLE_widened hvw))
    -- A number is at one end and another value that is compared as a double at the other.
    all_goals exact .inl (totalCompare_isLE_trans huv hvw)
  · left
    rw [compare_of_rank_ne hrank]
    exact Nat.isLE_compare.mpr (hle.trans hle')

theorem Tangle.not_chains {vs : List Value} (h : Tangle u v w) (hu : u ∈ vs) (hv : v ∈ vs)
    (hw : w ∈ vs) : ¬Chains vs := by
  intro hchains
  have hlaw := hchains u hu v hv w hw
  cases h with
  | @widened i j x less first last =>
    have hxi : x.totalCompare (Binary64.ofInt i.toInt) = .eq := Std.OrientedCmp.eq_symm first
    have hji := (hlaw (Ordering.isLE_of_eq_eq last) (Ordering.isLE_of_eq_eq hxi)).1
    have hle := Int.isLE_compare.mp hji
    have hlt := Int64.lt_iff_toInt_lt.mp less
    omega
  | times h =>
    obtain ⟨hab, hbc, hac⟩ := h.compareRead_eq
    exact hac ((hlaw (Ordering.isLE_of_eq_lt hab) (Ordering.isLE_of_eq_lt hbc)).2 (.inl hab))
  | dates h =>
    obtain ⟨hab, hbc, hac⟩ := h.compareRead_eq
    exact hac ((hlaw (Ordering.isLE_of_eq_lt hab) (Ordering.isLE_of_eq_lt hbc)).2 (.inl hab))

theorem chains_iff (vs : List Value) :
    Chains vs ↔ ∀ u ∈ vs, ∀ v ∈ vs, ∀ w ∈ vs, ¬Tangle u v w := by
  refine ⟨fun h u hu v hv w hw htangle => htangle.not_chains hu hv hw h, fun h => ?_⟩
  have htrans : ∀ u ∈ vs, ∀ v ∈ vs, ∀ w ∈ vs, (u.compare v).isLE = true →
      (v.compare w).isLE = true → (u.compare w).isLE = true := by
    intro u hu v hv w hw huv hvw
    rcases isLE_trans_or_tangle huv hvw with hle | ht | ht | ht
    · exact hle
    · exact absurd ht (h u hu v hv w hw)
    · exact absurd ht (h v hv w hw u hu)
    · exact absurd ht (h w hw u hu v hv)
  intro u hu v hv w hw huv hvw
  refine ⟨htrans u hu v hv w hw huv hvw, fun hlt => ?_⟩
  -- Were the third value not above the first, the one that is less would not be.
  by_contra huw
  have hwu : (w.compare u).isLE = true := by
    by_contra hwu
    exact huw (Std.OrientedCmp.lt_of_not_isLE hwu)
  rcases hlt with hlt | hlt
  · exact Std.OrientedCmp.not_isLE_of_lt hlt (htrans v hv w hw u hu hvw hwu)
  · exact Std.OrientedCmp.not_isLE_of_lt hlt (htrans w hw u hu v hv hwu huv)

/-- A text that names no time, between two times that come in the other order as texts, and two whole
numbers that become one double. -/
theorem compare_cycle :
    ((time "9:00").compare (time "10:00") = .lt ∧ (time "10:00").compare (time "5x") = .lt ∧
      (time "9:00").compare (time "5x") = .gt) ∧
    ((integer 9007199254740993).compare (number (.ofInt 9007199254740992)) = .eq ∧
      (number (.ofInt 9007199254740992)).compare (integer 9007199254740992) = .eq ∧
      (integer 9007199254740993).compare (integer 9007199254740992) = .gt) := by
  decide +kernel

/-! ## Columns of tables -/

theorem Tangle.not_isOf {type : ColumnType} (h : Tangle u v w) (hu : u.IsOf type)
    (hv : v.IsOf type) : False := by
  cases h with
  | widened less first last =>
    have htype := Option.some.inj (hu.type.resolve_left (by simp))
    have htype' := Option.some.inj (hv.type.resolve_left (by simp))
    exact ColumnType.noConfusion (htype.trans htype'.symm)
  | times h =>
    obtain ⟨t, ht⟩ := hv.time _ rfl
    rw [h.middle] at ht
    cases ht
  | dates h =>
    obtain ⟨t, ht⟩ := hv.date _ rfl
    rw [h.middle] at ht
    cases ht

theorem chains_of_reachable {config : Config} {t : Table} (h : t.Reachable config) (k : Nat) :
    Chains (t.rows.map (·.getD k .null)) := by
  obtain ⟨type, htype⟩ := exists_isOf t.schema k
  have hvalues : ∀ v ∈ t.rows.map (·.getD k .null), v.IsOf type := fun v hv => by
    obtain ⟨row, hrow, rfl⟩ := List.mem_map.mp hv
    exact htype row (h.sound.admits_of_mem_rows hrow)
  exact (chains_iff _).mpr fun u hu v hv w _ htangle =>
    htangle.not_isOf (hvalues u hu) (hvalues v hv)

/-- Every value is equal to itself and turning a comparison round reverses it. On some values the order is
transitive unless three of them do not fit together, and on the values of one column it always is. -/
theorem compare_preorder :
    (∀ v : Value, v.compare v = .eq) ∧
    (∀ v w : Value, w.compare v = (v.compare w).swap) ∧
    (∀ vs, Chains vs ↔ ∀ u ∈ vs, ∀ v ∈ vs, ∀ w ∈ vs, ¬Tangle u v w) ∧
    (∀ config (t : Table), t.Reachable config → ∀ k, Chains (t.rows.map (·.getD k .null))) :=
  ⟨compare_self, fun v w => compare_swap w v, chains_iff, fun _ _ => chains_of_reachable⟩

/-- A column of times, two of which are the same time and one is missing. -/
theorem compare_preorder_times : ∃ db t, Database.new .default = .ok db ∧
    (db.run [
      .createWith "times" [⟨"at", .time, 8, false, false, false⟩],
      .insert "times" (.positional [.str "10:00"]),
      .insert "times" (.positional [.str "9:00"]),
      .insert "times" (.positional []),
      .insert "times" (.positional [.str "09:00:00"]),
      .insert "times" (.positional [.str "5x"])]).table? "times" = some t ∧
    t.rows.map (·.getD 0 .null) = [time "10:00", time "9:00", null, time "09:00:00"] ∧
    Chains (t.rows.map (·.getD 0 .null)) :=
  Database.exists_table_of_run
    (fun t => decide
      (t.rows.map (·.getD 0 .null) = [time "10:00", time "9:00", null, time "09:00:00"]))
    (by decide +kernel) fun db t hdb ht hvalues => by
      have hreachable := ((Database.governed_new hdb).run _).tables _ t ht
      exact ⟨of_decide_eq_true hvalues, compare_preorder.2.2.2 _ t hreachable 0⟩

end Value

end TypedTables
