import TypedTables.Proofs.Binary64.WholeNumbers
import TypedTables.Proofs.Condition.Trimmed
import TypedTables.Proofs.Query.Answers
import TypedTables.Proofs.Table.Uniqueness

/-!
# Looking rows up

What a query finds that asks for one value of a unique column. Values are stored as they were
written, whole numbers in full, but a literal equals a value if it denotes the same double, time of
day or date. So a literal can equal values of several rows, though only if they are indistinct
(`Value.Indistinct`).
-/

namespace TypedTables

open Text Calendar

/-! ## Values that a literal equals -/

/-- Different values that the same literals equal: whole numbers that are one double, times written
in two ways, or dates. -/
inductive Value.Indistinct : Value → Value → Prop where
  | integers {i j : Int64} (different : i ≠ j)
    (large : Binary64.wholeLimit ≤ i.toInt.natAbs ∧ Binary64.wholeLimit ≤ j.toInt.natAbs)
    (same : (Binary64.ofInt i.toInt).sameNumber (Binary64.ofInt j.toInt) = true) :
    Indistinct (.integer i) (.integer j)
  | times {a b : String} {t : ClockTime} (different : a ≠ b)
    (first : ClockTime.read? a = some t) (second : ClockTime.read? b = some t) :
    Indistinct (.time a) (.time b)
  | dates {a b : String} {d : Date} (different : a ≠ b)
    (first : Date.read? a = some d) (second : Date.read? b = some d) :
    Indistinct (.date a) (.date b)

theorem Value.Indistinct.symm {v w : Value} (h : v.Indistinct w) : w.Indistinct v := by
  cases h with
  | integers different large same =>
    rw [Binary64.sameNumber_comm] at same
    exact .integers different.symm large.symm same
  | times different first second => exact .times different.symm second first
  | dates different first second => exact .dates different.symm second first

theorem Value.Indistinct.type {v w : Value} (h : v.Indistinct w) :
    v.columnType? = some .integer ∨ v.columnType? = some .time ∨ v.columnType? = some .date := by
  cases h with
  | integers => exact .inl rfl
  | times => exact .inr (.inl rfl)
  | dates => exact .inr (.inr rfl)

namespace Literal

variable {l : Literal}

theorem read_time_of_compareWith? {a : String} (h : l.compareWith? (.time a) = some .eq) :
    ∃ t, ClockTime.read? a = some t ∧ ClockTime.read? l.toText = some t := by
  simp only [compareWith?] at h
  split at h
  · next t u ht hu =>
    obtain rfl : t = u := Std.LawfulEqCmp.eq_of_compare (Option.some.inj h)
    exact ⟨t, ht, hu⟩
  · cases h

theorem read_date_of_compareWith? {a : String} (h : l.compareWith? (.date a) = some .eq) :
    ∃ d, Date.read? a = some d ∧ Date.read? l.toText = some d := by
  simp only [compareWith?] at h
  split at h
  · next d e hd he =>
    obtain rfl : d = e := Std.LawfulEqCmp.eq_of_compare (Option.some.inj h)
    exact ⟨d, hd, he⟩
  · cases h

/-- A number that compares as equal with a literal has the place that the literal denotes. -/
theorem place_of_toNumber? {x : Binary64} (h : l.toNumber?.bind x.compare? = some .eq) :
    ∃ z, l.toNumber? = some z ∧ x.isNaN = false ∧ x.place = z.place := by
  obtain ⟨z, hz, hxz⟩ := Option.bind_eq_some_iff.mp h
  obtain ⟨hx, -, hplace⟩ := Binary64.compare?_eq_some_eq.mp hxz
  exact ⟨z, hz, hx, hplace⟩

theorem sameNumber_of_toNumber? {x y : Binary64} (hx : l.toNumber?.bind x.compare? = some .eq)
    (hy : l.toNumber?.bind y.compare? = some .eq) : x.sameNumber y = true := by
  obtain ⟨z, hz, hxn, hxp⟩ := place_of_toNumber? hx
  obtain ⟨z', hz', hyn, hyp⟩ := place_of_toNumber? hy
  obtain rfl : z' = z := Option.some.inj (hz'.symm.trans hz)
  exact Binary64.sameNumber_iff.mpr ⟨hxn, hyn, hxp.trans hyp.symm⟩

/-- Different values of one type that a literal equals are indistinct. -/
theorem indistinct_of_compareWith? {v w : Value} (htype : v.columnType? = w.columnType?)
    (hsame : v.same w = false) (hv : l.compareWith? v = some .eq)
    (hw : l.compareWith? w = some .eq) : v.Indistinct w := by
  cases v <;> cases w <;> try cases htype
  case null.null => cases hv
  case text.text a b =>
    have ha : a = l.toText := by simpa [compareWith?] using hv
    have hb : b = l.toText := by simpa [compareWith?] using hw
    simp [Value.same, ha, hb] at hsame
  case number.number x y =>
    have := sameNumber_of_toNumber? hv hw
    rw [Value.same, this] at hsame
    cases hsame
  case integer.integer i j =>
    have hne : i ≠ j := by simpa [Value.same] using hsame
    have hdouble := sameNumber_of_toNumber? hv hw
    have hne' : i.toInt ≠ j.toInt := fun h => hne (Int64.toInt_inj.mp h)
    exact .integers hne (Binary64.wholeLimit_le_of_sameNumber hne' hdouble) hdouble
  case boolean.boolean a b =>
    obtain ⟨c, hc, ha⟩ := Option.map_eq_some_iff.mp hv
    obtain ⟨c', hc', hb⟩ := Option.map_eq_some_iff.mp hw
    obtain rfl : c' = c := Option.some.inj (hc'.symm.trans hc)
    have hab : a = b := by
      have := (Nat.compare_eq_eq.mp ha).trans (Nat.compare_eq_eq.mp hb).symm
      cases a <;> cases b <;> first | rfl | cases this
    simp [Value.same, hab] at hsame
  case time.time a b =>
    have hne : a ≠ b := by simpa [Value.same] using hsame
    obtain ⟨t, ha, hl⟩ := read_time_of_compareWith? hv
    obtain ⟨u, hb, hl'⟩ := read_time_of_compareWith? hw
    obtain rfl : t = u := Option.some.inj (hl.symm.trans hl')
    exact .times hne ha hb
  case date.date a b =>
    have hne : a ≠ b := by simpa [Value.same] using hsame
    obtain ⟨d, ha, hl⟩ := read_date_of_compareWith? hv
    obtain ⟨e, hb, hl'⟩ := read_date_of_compareWith? hw
    obtain rfl : d = e := Option.some.inj (hl.symm.trans hl')
    exact .dates hne ha hb

end Literal

/-! ## Conditions in a clause of their own -/

variable {s : Schema} {text : String} {k : Nat} {d : ColumnDecl} {literal : Literal}

theorem WhereClause.read_singleton {item : String} (hs : s.names.Nodup)
    (hd : s.columns[k]? = some d)
    (hitem : WrittenCondition.read (trimmed item.toList) = .ok ⟨d.name, .equal, literal⟩) :
    WhereClause.read s [item] = .ok ⟨[⟨d.name, k, .equal, literal⟩], [], []⟩ := by
  have hread : Condition.read s (trimmed item.toList) = .ok ⟨d.name, k, .equal, literal⟩ := by
    rw [Condition.read, hitem, Outcome.ok_bind]
    simp only [Schema.position?_name hs hd]
    rfl
  rw [WhereClause.read_one, WrittenCondition.ofWord?_eq_none_of_read hitem, hread]
  rfl

theorem Condition.holds_equal (name : String) (row : Row) :
    (Condition.mk name k .equal literal).holds row =
      (row[k]?).any fun v => literal.compareWith? v == some .eq := by
  unfold Condition.holds
  cases row[k]? with
  | none => rfl
  | some v =>
    show (!v.isNull && (literal.compareWith? v == some .eq)) = (literal.compareWith? v == some .eq)
    cases v with
    | null => rfl
    | _ => simp only [Value.isNull, Bool.not_false, Bool.true_and]

/-! ## Rows found -/

theorem eq_singleton_of_pairwise {α : Type} {R : α → α → Prop} (hsymm : ∀ a b, R a b → R b a)
    {l : List α} {a : α} (h : l.Pairwise R) (ha : a ∈ l) (halone : ∀ b, ¬R a b) : l = [a] := by
  obtain ⟨front, back, rfl⟩ := List.append_of_mem ha
  obtain ⟨-, hback, hfront⟩ := List.pairwise_append.mp h
  have hfront : front = [] := List.eq_nil_iff_forall_not_mem.mpr fun b hb =>
    halone b (hsymm b a (hfront b hb a (List.mem_cons_self ..)))
  have hback : back = [] := List.eq_nil_iff_forall_not_mem.mpr fun b hb =>
    halone b ((List.pairwise_cons.mp hback).1 b hb)
  rw [hfront, hback, List.nil_append]

namespace Table

variable {config : Config} {t : Table}

def equalling (t : Table) (k : Nat) (literal : Literal) : List Row :=
  t.rows.filter fun row => (row[k]?).any fun v => literal.compareWith? v == some .eq

def IndistinctIn (k : Nat) (a b : Row) : Prop :=
  ∃ v w, a[k]? = some v ∧ b[k]? = some w ∧ v.Indistinct w

theorem IndistinctIn.symm {a b : Row} (h : IndistinctIn k a b) : IndistinctIn k b a := by
  obtain ⟨v, w, hv, hw, hvw⟩ := h
  exact ⟨w, v, hw, hv, hvw.symm⟩

theorem get_condition {item : String} (hs : t.schema.names.Nodup)
    (hd : t.schema.columns[k]? = some d)
    (hitem : WrittenCondition.read (trimmed item.toList) = .ok ⟨d.name, .equal, literal⟩) :
    t.get { clause := [item] } = .ok (.rows t.schema.names (t.equalling k literal)) := by
  have hholds : ∀ row, (WhereClause.mk [⟨d.name, k, .equal, literal⟩] [] []).holds row =
      (row[k]?).any fun v => literal.compareWith? v == some .eq := fun row => by
    rw [Condition.holds_one, Condition.holds_equal]
  rw [get_clause, WhereClause.read_singleton hs hd hitem, equalling,
    ← List.filter_congr fun row _ => hholds row]
  rfl

theorem Sound.value_of_mem_equalling (h : t.Sound config) (hd : t.schema.columns[k]? = some d)
    {row : Row} (hrow : row ∈ t.equalling k literal) :
    ∃ v, row[k]? = some v ∧ v.columnType? = some d.type ∧ literal.compareWith? v = some .eq := by
  obtain ⟨hmem, hequal⟩ := List.mem_filter.mp hrow
  obtain ⟨v, hv, hequal⟩ := (Option.any_eq_true _ _).mp hequal
  have hequal : literal.compareWith? v = some .eq := by simpa using hequal
  have hnull : v ≠ .null := by
    rintro rfl
    cases hequal
  obtain ⟨hk, rfl⟩ := List.getElem?_eq_some_iff.mp hd
  obtain ⟨hk', rfl⟩ := List.getElem?_eq_some_iff.mp hv
  have hadmits := (h.admits_of_mem_rows hmem).get hk hk'
  exact ⟨_, hv, hadmits.kind.type.resolve_left hnull, hequal⟩

/-- Rows that one literal equals in a unique column have indistinct values there. -/
theorem Reachable.pairwise_equalling (h : t.Reachable config) (hd : t.schema.columns[k]? = some d)
    (hunique : d.unique = true) (literal : Literal) :
    (t.equalling k literal).Pairwise (IndistinctIn k) := by
  obtain ⟨-, hrows⟩ := h.sound.rows_spec
  have hdistinct : t.rows.Pairwise fun a b => ∀ v w, a[k]? = some v → b[k]? = some w →
      v ≠ .null → w ≠ .null → v.same w = false := by
    refine List.pairwise_iff_getElem.mpr fun i j hi hj hij v w hv hw => ?_
    refine h.distinctIn hd hunique i j _ _ v w (Nat.ne_of_lt hij) ?_ ?_ hv hw
    · rw [← hrows, List.getElem?_eq_getElem hi]
    · rw [← hrows, List.getElem?_eq_getElem hj]
  refine (hdistinct.filter _).imp_of_mem fun {a b} ha hb hab => ?_
  obtain ⟨v, hv, hvtype, hvequal⟩ := h.sound.value_of_mem_equalling hd ha
  obtain ⟨w, hw, hwtype, hwequal⟩ := h.sound.value_of_mem_equalling hd hb
  have hsame := hab v w hv hw (Value.ne_null_of_columnType? hvtype)
    (Value.ne_null_of_columnType? hwtype)
  exact ⟨v, w, hv, hw, Literal.indistinct_of_compareWith? (hvtype.trans hwtype.symm) hsame hvequal
    hwequal⟩

/-- What a unique column is for queries: one that asks for a value returns the rows whose value the
literal equals. Their values are indistinct, so there is at most one row if the column has texts,
numbers or truth values, and a row with a whole number that is not large is the only one. -/
structure Identifies (t : Table) (k : Nat) (type : ColumnType) (item : String)
    (literal : Literal) : Prop where
  answer : t.get { clause := [item] } = .ok (.rows t.schema.names (t.equalling k literal))
  indistinct : (t.equalling k literal).Pairwise (IndistinctIn k)
  single : type = .text ∨ type = .number ∨ type = .boolean → (t.equalling k literal).length ≤ 1
  small : ∀ row ∈ t.equalling k literal, ∀ i : Int64, row[k]? = some (.integer i) →
    i.toInt.natAbs < Binary64.wholeLimit → t.equalling k literal = [row]

theorem identifies_of_unique (h : t.Reachable config) (hd : t.schema.columns[k]? = some d)
    (hunique : d.unique = true) {item : String}
    (hitem : WrittenCondition.read (trimmed item.toList) = .ok ⟨d.name, .equal, literal⟩) :
    t.Identifies k d.type item literal := by
  have hpairs := h.pairwise_equalling hd hunique literal
  refine ⟨get_condition h.sound.schema.distinct hd hitem, hpairs, fun htype => ?_,
    fun row hrow i hi hsmall => ?_⟩
  · cases hfound : t.equalling k literal with
    | nil => exact Nat.zero_le 1
    | cons row rest =>
      have hrow : row ∈ t.equalling k literal := by
        rw [hfound]
        exact List.mem_cons_self ..
      have hone : t.equalling k literal = [row] := by
        refine eq_singleton_of_pairwise (fun _ _ => IndistinctIn.symm) hpairs hrow fun b hb => ?_
        obtain ⟨v, hv, hvtype, -⟩ := h.sound.value_of_mem_equalling hd hrow
        obtain ⟨v', w, hv', -, hindistinct⟩ := hb
        obtain rfl : v' = v := Option.some.inj (hv'.symm.trans hv)
        have := hindistinct.type
        rw [hvtype] at this
        rcases htype with htype | htype | htype <;> simp [htype] at this
      rw [← hfound, hone]
      exact Nat.le_refl 1
  · refine eq_singleton_of_pairwise (fun _ _ => IndistinctIn.symm) hpairs hrow fun b hb => ?_
    obtain ⟨v, w, hv, -, hindistinct⟩ := hb
    obtain rfl : v = .integer i := Option.some.inj (hv.symm.trans hi)
    cases hindistinct with
    | integers _ large => exact absurd large.1 (by omega)

/-- The one row of three that has a name. -/
theorem identifies_of_unique_fig : ∃ db t, Database.new .default = .ok db ∧
    (db.run [.createWith "fruits" [⟨"name", .text, 8, true, true, false⟩],
      .insert "fruits" (.positional [.str "plum"]), .insert "fruits" (.positional [.str "fig"]),
      .insert "fruits" (.positional [.str "Fig"])]).table? "fruits" = some t ∧
    (t.schema.columns[0]? = some ⟨"name", .text, 8, true, true, false⟩ ∧
      t.equalling 0 (.text "fig") = [[.text "fig"]]) ∧
    t.Identifies 0 .text "name == 'fig'" (.text "fig") :=
  Database.exists_table_of_run
    (fun t => decide (t.schema.columns[0]? = some ⟨"name", .text, 8, true, true, false⟩ ∧
      t.equalling 0 (.text "fig") = [[.text "fig"]]))
    (by decide +kernel) fun db t hdb ht htest => by
      have htest := of_decide_eq_true htest
      have ht := ((Database.governed_new hdb).run _).tables _ t ht
      exact ⟨htest, identifies_of_unique ht htest.1 rfl (by decide +kernel)⟩

/-- One time and one date written in two ways, and two whole numbers that are one double. -/
def twins : List Row :=
  [[.time "8:30", .date "2024-1-9", .integer 9007199254740992],
    [.time "08:30", .date "2024/01/09", .integer 9007199254740993]]

/-- All three columns are unique, and yet one value of each finds two rows. -/
theorem get_twins : ∃ db t, Database.new .default = .ok db ∧
    (db.run [.createWith "events" [⟨"at", .time, 8, true, false, false⟩,
        ⟨"day", .date, 10, true, false, false⟩, ⟨"n", .integer, 16, true, false, false⟩],
      .insert "events" (.positional [.str "8:30", .str "2024-1-9", .str "9007199254740992"]),
      .insert "events" (.positional [.str "08:30", .str "2024/01/09", .str "9007199254740993"])
      ]).table? "events" = some t ∧
    (∀ d ∈ t.schema.columns, d.unique = true) ∧
    ∀ item ∈ ["at == '8:30'", "day == '2024-01-09'", "n == 9007199254740993"],
      t.get { clause := [item] } = .ok (.rows t.schema.names twins) :=
  Database.exists_table_of_run
    (fun t => decide ((∀ d ∈ t.schema.columns, d.unique = true) ∧
      ∀ item ∈ ["at == '8:30'", "day == '2024-01-09'", "n == 9007199254740993"],
        t.get { clause := [item] } = .ok (.rows t.schema.names twins)))
    (by decide +kernel) fun _ _ _ _ htest => of_decide_eq_true htest

end Table

end TypedTables
