import TypedTables.Proofs.Table.Counting

/-!
# Fresh ids

When the next number of a unique column that counts on is free. Counting looks at the last row only, so
what comes next may be in an earlier row already (`Table.Collides`), and the row is refused then. That
takes a row whose number was supplied and is smaller than one before it: while numbers ascend, the next
one is free.
-/

namespace TypedTables.Table

variable {config : Config} {t : Table} {input : RowInput} {inputs : List RowInput} {i j k : Nat}
  {d : ColumnDecl} {n m : Int64}

/-! ## Numbers that are taken -/

/-- Some row has the number that comes after that of the last row. -/
def Collides (t : Table) (k : Nat) (n : Int64) : Prop :=
  ∃ m last i, t.rowCount = m + 1 ∧ t.value? m k = some (.integer last) ∧
    n.toInt = last.toInt + 1 ∧ t.value? i k = some (.integer n)

theorem hasIn_integer : t.HasIn k (.integer n) ↔ ∃ i, t.value? i k = some (.integer n) := by
  constructor
  · rintro ⟨i, row, w, hrow, hw, -, hsame⟩
    have hwn : w = .integer n := by
      cases w <;> exact beq_iff_eq.mp hsame
    refine ⟨i, ?_⟩
    rw [value?, hrow, Option.bind_some, hw, hwn]
  · rintro ⟨i, hi⟩
    obtain ⟨row, hrow, hn⟩ := Option.bind_eq_some_iff.mp hi
    exact ⟨i, row, _, hrow, hn, by simp, beq_iff_eq.mpr rfl⟩

theorem Sound.successor_contains_iff (h : t.Sound config) (hd : t.schema.columns[k]? = some d)
    (hcounts : d.Counts) {c : Column} (hc : t.columns[k]? = some c) {shown : String} :
    (∃ v, d.successor c = .ok v ∧ c.contains v = true ∧ shown = v.display) ↔
      ∃ n, t.Collides k n ∧ shown = toString n.toInt := by
  obtain ⟨c', hc', hfits, hget⟩ := h.exists_column hd
  obtain rfl := Option.some.inj (hc'.symm.trans hc)
  have hcontains : ∀ n, c'.contains (.integer n) = true ↔ ∃ i, t.value? i k = some (.integer n) := by
    intro n
    rw [h.contains_iff hd hc (ColumnDecl.admits_integer hcounts.integer n), hasIn_integer]
    exact and_iff_right (by simp)
  rcases hcounts.successor_eq hfits with ⟨hzero, hfirst⟩ | ⟨m, last, hm, hlast, hnext⟩
  · -- A table without rows has no number at all.
    refine iff_of_false ?_ ?_
    · rintro ⟨v, hv, hheld, -⟩
      rw [hfirst] at hv
      cases hv
      obtain ⟨i, hi⟩ := (hcontains 1).mp hheld
      rw [value?, row?_eq_none (by omega)] at hi
      cases hi
    · rintro ⟨n, ⟨m, last, i, hm, -⟩, -⟩
      omega
  · have hvalue : t.value? m k = some (.integer last) := (hget m).symm.trans hlast
    rw [hnext]
    constructor
    · rintro ⟨v, hv, hheld, rfl⟩
      split at hv
      · next hroom =>
        cases hv
        obtain ⟨i, hi⟩ := (hcontains (last + 1)).mp hheld
        exact ⟨last + 1, ⟨m, last, i, hm, hvalue, toInt_succ hroom, hi⟩, rfl⟩
      · cases hv
    · rintro ⟨n, ⟨m', last', i, hm', hlast', hn, hi⟩, rfl⟩
      obtain rfl : m' = m := by omega
      rw [hvalue] at hlast'
      cases hlast'
      have hroom : last < Int64.maxValue := by
        have hle := Int64.toInt_le n
        have hmax : Int64.maxValue.toInt = 2 ^ 63 - 1 := rfl
        exact Int64.lt_iff_toInt_lt.mpr (by omega)
      obtain rfl : n = last + 1 := Int64.toInt_inj.mp (by rw [hn, toInt_succ hroom])
      exact ⟨.integer (last + 1), if_pos hroom, (hcontains _).mpr ⟨i, hi⟩, rfl⟩

theorem Sound.insert_eq_duplicate_of_leavesOut (h : t.Sound config)
    (hd : t.schema.columns[k]? = some d) (hcounts : d.Counts) (hunique : d.unique = true)
    (hout : input.LeavesOut t.schema k) (shown : String) :
    (t.insert input).2 = .error (.duplicateValue d.name shown) ↔
      t.Passes input k ∧ ∃ n, t.Collides k n ∧ shown = toString n.toInt := by
  obtain ⟨c, hc, -⟩ := h.exists_column hd
  rw [h.insert_error_of_leavesOut hd hc hout rfl, ← h.successor_contains_iff hd hcounts hc,
    ColumnDecl.encodeSlot_eq_duplicate, ColumnDecl.slotValue_none hcounts.auto hcounts.optional]
  refine and_congr_right fun _ => ?_
  constructor
  · rintro ⟨v, hv, -, hheld, -, hshown⟩
    exact ⟨v, hv, hheld, hshown⟩
  · rintro ⟨v, hv, hheld, hshown⟩
    exact ⟨v, hv, hunique, hheld, rfl, hshown⟩

/-! ## Numbers that ascend -/

def RisesAt (t : Table) (i k : Nat) : Prop :=
  ∀ j m n, i = j + 1 → t.value? j k = some (.integer m) → t.value? i k = some (.integer n) →
    m.toInt < n.toInt

def Ascends (t : Table) (k : Nat) : Prop := ∀ i, t.RisesAt i k

theorem CountedAt.risesAt (h : t.CountedAt i k) : t.RisesAt i k := by
  intro j m n hi hm hn
  obtain ⟨n', hn', ⟨hzero, -⟩ | ⟨j', m', hj', hm', hnext⟩⟩ := h
  · omega
  · obtain rfl : j' = j := by omega
    rw [hn] at hn'
    rw [hm] at hm'
    cases hn'
    cases hm'
    omega

theorem RisesAt.growsBy {r : Nat} {t' : Table} (h : t.RisesAt i k) (hgrows : t.GrowsBy r t')
    (hi : i < t.rowCount) : t'.RisesAt i k := by
  intro j m n hj hm hn
  rw [hgrows.value?_eq (by omega)] at hm hn
  exact h j m n hj hm hn

theorem Ascends.le (h : t.Ascends k) (ht : t.Sound config) (hd : t.schema.columns[k]? = some d)
    (hcounts : d.Counts) (hij : i ≤ j) (hj : j < t.rowCount) (hn : t.value? i k = some (.integer n))
    (hm : t.value? j k = some (.integer m)) : n.toInt ≤ m.toInt := by
  induction j generalizing m with
  | zero =>
    obtain rfl : i = 0 := by omega
    rw [hn] at hm
    cases hm
    exact Int.le_refl _
  | succ j ih =>
    rcases Nat.eq_or_lt_of_le hij with rfl | hlt
    · rw [hn] at hm
      cases hm
      exact Int.le_refl _
    · obtain ⟨p, hp⟩ := ht.exists_integer hd hcounts (show j < t.rowCount by omega)
      have hle := ih (by omega) (by omega) hp
      have hrises := h (j + 1) j p m rfl hp hm
      omega

theorem Ascends.not_collides (h : t.Ascends k) (ht : t.Sound config)
    (hd : t.schema.columns[k]? = some d) (hcounts : d.Counts) (n : Int64) : ¬t.Collides k n := by
  rintro ⟨m, last, i, hm, hlast, hn, hi⟩
  have hlt : i < t.rowCount := by
    by_contra hge
    rw [value?, row?_eq_none (by omega)] at hi
    cases hi
  have := h.le ht hd hcounts (show i ≤ m by omega) (by omega) hi hlast
  omega

/-- A run keeps the numbers ascending if every number that a row supplies is greater than that of the row
before. -/
theorem Sound.ascends_insertAll (h : t.Sound config) (hd : t.schema.columns[k]? = some d)
    (hcounts : d.Counts) (hascends : t.Ascends k)
    (hsupplied : ∀ r input, (t.accepted inputs)[r]? = some input →
      input.LeavesOut t.schema k ∨ (t.insertAll inputs).RisesAt (t.rowCount + r) k) :
    (t.insertAll inputs).Ascends k := by
  have hgrows := h.growsBy_insertAll inputs
  intro i
  rcases Nat.lt_or_ge i t.rowCount with hi | hi
  · exact (hascends i).growsBy hgrows hi
  · obtain ⟨r, rfl⟩ := Nat.exists_eq_add_of_le hi
    cases hinput : (t.accepted inputs)[r]? with
    | some input =>
      rcases hsupplied r input hinput with hout | hrises
      · exact (h.countedAt_of_accepted hd hcounts hinput hout).risesAt
      · exact hrises
    | none =>
      have hlength : (t.accepted inputs).length ≤ r := List.getElem?_eq_none_iff.mp hinput
      intro j m n _ _ hn
      rw [value?, row?_eq_none (by rw [hgrows.rowCount]; omega)] at hn
      cases hn

/-! ## Fresh numbers -/

/-- When a unique column that counts on refuses its own number: if an earlier row has it, and only then. It
has none while numbers ascend, as they do if every number that is supplied is greater than the one
before. -/
structure CountsFresh (t : Table) (k : Nat) (d : ColumnDecl) : Prop where
  refused : ∀ input, input.LeavesOut t.schema k → ∀ shown,
    (t.insert input).2 = .error (.duplicateValue d.name shown) ↔
      t.Passes input k ∧ ∃ n, t.Collides k n ∧ shown = toString n.toInt
  fresh : t.Ascends k → ∀ inputs,
    (∀ r input, (t.accepted inputs)[r]? = some input →
      input.LeavesOut t.schema k ∨ (t.insertAll inputs).RisesAt (t.rowCount + r) k) →
    ∀ input, input.LeavesOut t.schema k → ∀ shown,
      ((t.insertAll inputs).insert input).2 ≠ .error (.duplicateValue d.name shown)

theorem countsFresh_of_reachable (h : t.Reachable config) (hd : t.schema.columns[k]? = some d)
    (hcounts : d.Counts) (hunique : d.unique = true) : t.CountsFresh k d := by
  refine ⟨?_, ?_⟩
  · intro input hout shown
    exact h.sound.insert_eq_duplicate_of_leavesOut hd hcounts hunique hout shown
  · intro hascends inputs hsupplied input hout shown hduplicate
    have hgrows := h.sound.growsBy_insertAll inputs
    have hsound := (h.insertAll inputs).sound
    have hfinal := h.sound.ascends_insertAll hd hcounts hascends hsupplied
    rw [← hgrows.schema] at hd hout
    obtain ⟨-, n, hcollides, -⟩ :=
      (hsound.insert_eq_duplicate_of_leavesOut hd hcounts hunique hout shown).mp hduplicate
    exact hfinal.not_collides hsound hd hcounts n hcollides

/-- A row without an id, a row with one that is greater, and a row without. -/
theorem countsFresh_of_reachable_ids :
    let d : ColumnDecl := ⟨"id", .integer, 3, true, false, true⟩
    ∃ db t, Database.new .default = .ok db ∧
      (db.run [.createWith "ids" [d], .insert "ids" (.positional []),
        .insert "ids" (.positional [.str "5"]), .insert "ids" (.positional [])]).table? "ids" =
        some t ∧
      (t.schema.columns[0]? = some d ∧
        t.rows = [[.integer 1], [.integer 5], [.integer 6]] ∧
        (t.insert (.positional [.str "5"])).2 = .error (.duplicateValue "id" "5")) ∧
      t.CountsFresh 0 d :=
  Database.exists_table_of_run
    (fun t => decide (t.schema.columns[0]? = some ⟨"id", .integer, 3, true, false, true⟩ ∧
      t.rows = [[.integer 1], [.integer 5], [.integer 6]] ∧
      (t.insert (.positional [.str "5"])).2 = .error (.duplicateValue "id" "5")))
    (by decide +kernel) fun _ t hdb ht htest => by
      have htest := of_decide_eq_true htest
      have ht := ((Database.governed_new hdb).run _).tables _ t ht
      exact ⟨htest, countsFresh_of_reachable ht htest.1 ⟨rfl, rfl, rfl⟩ rfl⟩

/-- After the ids two and one, a row that leaves its id out is refused for the id that it would get. -/
theorem exists_taken :
    let d : ColumnDecl := ⟨"id", .integer, 3, true, false, true⟩
    ∃ db t, Database.new .default = .ok db ∧
      (db.run [.createWith "ids" [d], .insert "ids" (.positional [.str "2"]),
        .insert "ids" (.positional [.str "1"])]).table? "ids" = some t ∧
      t.Reachable .default ∧ t.schema.columns[0]? = some d ∧
      RowInput.LeavesOut t.schema 0 (.positional []) ∧
      (t.insert (.positional [])).2 = .error (.duplicateValue "id" "2") :=
  Database.exists_table_of_run
    (fun t => decide (t.schema.columns[0]? = some ⟨"id", .integer, 3, true, false, true⟩ ∧
      (t.insert (.positional [])).2 = .error (.duplicateValue "id" "2")))
    (by decide +kernel) fun _ t hdb ht htest => by
      have htest := of_decide_eq_true htest
      have ht := ((Database.governed_new hdb).run _).tables _ t ht
      exact ⟨ht, htest.1, .inl rfl, htest.2⟩

end TypedTables.Table
