import TypedTables.Proofs.Table.Origins
import TypedTables.Proofs.Table.Sizes
import TypedTables.Proofs.Table.Uniqueness

/-!
# Counting

What a column of whole numbers that counts on holds for the rows that leave it out, over whole runs of
insertions (`Table.KeepsCount`). A row that is refused leaves the table as it is, so a run is one of the
rows that are taken in (`Table.accepted`). A row that leaves the column out gets one more than the row
before it, however that one came by its value.
-/

namespace TypedTables

/-! ## The next whole number -/

/-- The column holds whole numbers and counts on where a row leaves it out. -/
structure ColumnDecl.Counts (d : ColumnDecl) : Prop where
  integer : d.type = .integer
  auto : d.autoincrement = true
  optional : d.required = false

theorem ColumnDecl.slotValue_none {d : ColumnDecl} (hauto : d.autoincrement = true)
    (hoptional : d.required = false) (formats : Formats Pattern) (c : Column) :
    d.slotValue formats c none = d.successor c := by
  simp only [slotValue, hoptional, hauto, if_true, Bool.false_eq_true, if_false]

theorem ColumnDecl.Counts.successor_eq {d : ColumnDecl} {c : Column} {n : Nat}
    (h : d.Counts) (hc : c.Fits d n) :
    (n = 0 ∧ d.successor c = .ok (.integer 1)) ∨
    ∃ m i, n = m + 1 ∧ c.get? m = some (.integer i) ∧
      d.successor c = if i < Int64.maxValue then .ok (.integer (i + 1))
        else .error (.overflow d.name (toString i.toInt)) := by
  cases n with
  | zero =>
    have hlast := hc.last?_eq_none
    left
    refine ⟨rfl, ?_⟩
    simp only [successor, h.integer, hlast]
  | succ m =>
    obtain ⟨w, hw, hlast, hadmits⟩ := hc.exists_last?
    have hwtype := hadmits.kind.type.resolve_left (hadmits.filled (.inr h.auto))
    right
    rw [h.integer] at hwtype
    obtain ⟨i, rfl⟩ : ∃ i, w = .integer i := by
      cases w <;> cases hwtype
      exact ⟨_, rfl⟩
    refine ⟨m, i, rfl, hw, ?_⟩
    simp only [successor, h.integer, hlast]

/-- No look at the values that are there leads to this complaint. -/
theorem ColumnDecl.encodeSlot_eq_overflow {d : ColumnDecl} {formats : Formats Pattern} {c : Column}
    {raw : Option Json} {name shown : String} :
    d.encodeSlot formats c raw = .error (.overflow name shown) ↔
      d.slotValue formats c raw = .error (.overflow name shown) := by
  unfold encodeSlot
  cases d.slotValue formats c raw with
  | error e => rfl
  | ok v =>
    rw [Outcome.ok_bind]
    split
    · exact iff_of_false (fun h => by cases h) (fun h => by cases h)
    · exact iff_of_false (fun h => by cases h) (fun h => by cases h)

namespace Table

variable {config : Config} {t : Table} {input : RowInput} {inputs : List RowInput} {i k : Nat}
  {d : ColumnDecl} {c : Column}

/-! ## Runs of insertions -/

def accepted (t : Table) : List RowInput → List RowInput
  | [] => []
  | input :: inputs =>
    match (t.insert input).2 with
    | .ok () => input :: (t.insert input).1.accepted inputs
    | .error _ => (t.insert input).1.accepted inputs

theorem accepted_sublist (t : Table) (inputs : List RowInput) : (t.accepted inputs).Sublist inputs := by
  induction inputs generalizing t with
  | nil => exact .slnil
  | cons input inputs ih =>
    rw [accepted]
    split
    · exact (ih _).cons_cons input
    · exact (ih _).cons input

theorem Sound.insert_cases (h : t.Sound config) (input : RowInput) :
    (∃ e, (t.insert input).2 = .error e ∧ (t.insert input).1 = t) ∨
    ∃ row, (t.insert input).2 = .ok () ∧ input.encode t.formats t.schema t.columns = .ok row ∧
      t.Extends (t.insert input).1 row := by
  cases hresult : (t.insert input).2 with
  | error e => exact .inl ⟨e, rfl, (h.takes input).refused e hresult⟩
  | ok taken =>
    obtain ⟨row, hrow, hextends⟩ := (h.takes input).taken hresult
    exact .inr ⟨row, rfl, hrow, hextends⟩

/-- What a run does to a table: it has the rows that it had, and one more for each that is taken in. -/
structure GrowsBy (t : Table) (n : Nat) (t' : Table) : Prop where
  schema : t'.schema = t.schema
  rowCount : t'.rowCount = t.rowCount + n
  old : ∀ i < t.rowCount, t'.row? i = t.row? i

theorem Sound.growsBy_insertAll (h : t.Sound config) (inputs : List RowInput) :
    t.GrowsBy (t.accepted inputs).length (t.insertAll inputs) := by
  induction inputs generalizing t with
  | nil => exact ⟨rfl, rfl, fun _ _ => rfl⟩
  | cons input inputs ih =>
    have hrun := ih (h.insert input)
    have hstep : t.insertAll (input :: inputs) = (t.insert input).1.insertAll inputs := rfl
    rw [hstep, accepted]
    rcases h.insert_cases input with ⟨e, hresult, hsame⟩ | ⟨row, hresult, -, hextends⟩
    · rw [hresult]
      dsimp only
      rwa [hsame] at hrun ⊢
    · rw [hresult]
      dsimp only
      refine ⟨hrun.schema.trans hextends.schema, ?_, ?_⟩
      · rw [hrun.rowCount, hextends.rowCount, List.length_cons]
        omega
      · intro i hi
        rw [hrun.old i (by rw [hextends.rowCount]; omega), hextends.old i hi]

theorem GrowsBy.value?_eq {n : Nat} {t' : Table} (h : t.GrowsBy n t') (hi : i < t.rowCount) :
    t'.value? i k = t.value? i k := by
  rw [value?, value?, h.old i hi]

/-- Rows that are refused leave no trace. -/
theorem Sound.insertAll_accepted (h : t.Sound config) (inputs : List RowInput) :
    t.insertAll (t.accepted inputs) = t.insertAll inputs := by
  induction inputs generalizing t with
  | nil => rfl
  | cons input inputs ih =>
    have hrun := ih (h.insert input)
    have hstep : ∀ inputs, t.insertAll (input :: inputs) = (t.insert input).1.insertAll inputs :=
      fun _ => rfl
    rw [hstep, accepted]
    rcases h.insert_cases input with ⟨e, hresult, hsame⟩ | ⟨row, hresult, -, -⟩
    · rw [hresult]
      dsimp only
      rwa [hsame] at hrun ⊢
    · rw [hresult]
      dsimp only
      rwa [hstep]

/-! ## Rows that leave the column out -/

/-- The whole number of a row is one if there is no row before it, and else one more than that of the row
before. -/
def CountedAt (t : Table) (i k : Nat) : Prop :=
  ∃ n : Int64, t.value? i k = some (.integer n) ∧
    ((i = 0 ∧ n.toInt = 1) ∨
      ∃ j m, i = j + 1 ∧ t.value? j k = some (.integer m) ∧ n.toInt = m.toInt + 1)

theorem CountedAt.growsBy {n : Nat} {t' : Table} (h : t.CountedAt i k) (hgrows : t.GrowsBy n t')
    (hi : i < t.rowCount) : t'.CountedAt i k := by
  obtain ⟨v, hv, hcases⟩ := h
  refine ⟨v, (hgrows.value?_eq hi).trans hv, ?_⟩
  rcases hcases with hfirst | ⟨j, m, hj, hm, hnext⟩
  · exact .inl hfirst
  · exact .inr ⟨j, m, hj, (hgrows.value?_eq (by omega)).trans hm, hnext⟩

theorem Sound.value?_of_leavesOut (h : t.Sound config) (hd : t.schema.columns[k]? = some d)
    (hc : t.columns[k]? = some c) (hout : input.LeavesOut t.schema k)
    (hok : (t.insert input).2 = .ok ()) :
    ∃ v, (t.insert input).1.value? t.rowCount k = some v ∧ d.slotValue t.formats c none = .ok v := by
  rcases h.insert_cases input with ⟨e, hresult, -⟩ | ⟨row, -, hrow, hextends⟩
  · rw [hresult] at hok
    cases hok
  · have hk := (List.getElem?_eq_some_iff.mp hd).1
    have hlength : row.length = t.schema.columns.length := (h.admits_of_encode hrow).length_eq.symm
    obtain ⟨v, hv⟩ : ∃ v, row[k]? = some v := ⟨_, List.getElem?_eq_getElem (by omega)⟩
    obtain ⟨raws, hraws, hslots⟩ := Outcome.bind_eq_ok.mp hrow
    obtain ⟨c', raw, hc', hraw, hslot⟩ := encodeSlots_getElem? hslots hd hv
    obtain rfl := Option.some.inj (hc.symm.trans hc')
    rw [(RowInput.supplied_eq_none hraws hk).mpr hout] at hraw
    cases hraw
    refine ⟨v, ?_, (ColumnDecl.encodeSlot_eq_ok.mp hslot).1⟩
    rw [value?, hextends.new, Option.bind_some, hv]

/-- A row that leaves the column out gets the next whole number. -/
theorem Sound.countedAt_insert (h : t.Sound config) (hd : t.schema.columns[k]? = some d)
    (hcounts : d.Counts) (hout : input.LeavesOut t.schema k) (hok : (t.insert input).2 = .ok ()) :
    (t.insert input).1.CountedAt t.rowCount k := by
  obtain ⟨c, hc, hfits, hget⟩ := h.exists_column hd
  obtain ⟨v, hnew, hvalue⟩ := h.value?_of_leavesOut hd hc hout hok
  rw [ColumnDecl.slotValue_none hcounts.auto hcounts.optional] at hvalue
  rcases hcounts.successor_eq hfits with ⟨hzero, hfirst⟩ | ⟨m, i, hm, hi, hnext⟩
  · rw [hfirst] at hvalue
    cases hvalue
    exact ⟨1, hnew, .inl ⟨hzero, rfl⟩⟩
  · rw [hnext] at hvalue
    split at hvalue
    · next hroom =>
      cases hvalue
      have hold : (t.insert input).1.value? m k = t.value? m k := by
        obtain ⟨row, -, hextends⟩ := (h.takes input).taken hok
        rw [value?, value?, hextends.old m (by omega)]
      refine ⟨i + 1, hnew, .inr ⟨m, i, hm, ?_, toInt_succ hroom⟩⟩
      rw [hold]
      exact (hget m).symm.trans hi
    · cases hvalue

theorem Sound.countedAt_of_accepted (h : t.Sound config) (hd : t.schema.columns[k]? = some d)
    (hcounts : d.Counts) {r : Nat} (hr : (t.accepted inputs)[r]? = some input)
    (hout : input.LeavesOut t.schema k) : (t.insertAll inputs).CountedAt (t.rowCount + r) k := by
  induction inputs generalizing t r with
  | nil => cases hr
  | cons head inputs ih =>
    have hstep : t.insertAll (head :: inputs) = (t.insert head).1.insertAll inputs := rfl
    rw [hstep]
    rw [accepted] at hr
    rcases h.insert_cases head with ⟨e, hresult, hsame⟩ | ⟨row, hresult, -, hextends⟩
    · rw [hresult] at hr
      dsimp only at hr
      rw [hsame] at hr ⊢
      exact ih h hd hr hout
    · rw [hresult] at hr
      dsimp only at hr
      cases r with
      | zero =>
        rw [List.getElem?_cons_zero] at hr
        cases hr
        refine (h.countedAt_insert hd hcounts hout hresult).growsBy
          ((h.insert input).growsBy_insertAll inputs) ?_
        rw [hextends.rowCount]
        exact Nat.lt_succ_self _
      | succ r =>
        rw [List.getElem?_cons_succ] at hr
        rw [← hextends.schema] at hd hout
        have hcounted := ih (h.insert head) hd hr hout
        rwa [hextends.rowCount, Nat.add_right_comm] at hcounted

/-! ## The end of counting -/

def Passes (t : Table) (input : RowInput) (k : Nat) : Prop := ∃ raw, t.Reaches input k raw

theorem Reaches.eq_none {raw : Option Json} (h : t.Reaches input k raw)
    (hd : t.schema.columns[k]? = some d) (hout : input.LeavesOut t.schema k) : raw = none := by
  obtain ⟨raws, earlier, hraws, -, hraw⟩ := h
  have hk := (List.getElem?_eq_some_iff.mp hd).1
  rw [(RowInput.supplied_eq_none hraws hk).mpr hout] at hraw
  exact (Option.some.inj hraw).symm

/-- A row that leaves a column out is refused with a complaint about the column just if the columns
before it pass and the column has nothing to put there itself. -/
theorem Sound.insert_error_of_leavesOut {e : RowError} (h : t.Sound config)
    (hd : t.schema.columns[k]? = some d) (hc : t.columns[k]? = some c)
    (hout : input.LeavesOut t.schema k) (hcolumn : e.column? = some d.name) :
    (t.insert input).2 = .error e ↔
      t.Passes input k ∧ d.encodeSlot t.formats c none = .error e := by
  rw [h.insert_error_iff hd hc hcolumn]
  constructor
  · rintro ⟨raw, hreaches, hslot⟩
    obtain rfl := hreaches.eq_none hd hout
    exact ⟨⟨none, hreaches⟩, hslot⟩
  · rintro ⟨⟨raw, hreaches⟩, hslot⟩
    obtain rfl := hreaches.eq_none hd hout
    exact ⟨none, hreaches, hslot⟩

theorem Sound.insert_overflow_iff (h : t.Sound config) (hd : t.schema.columns[k]? = some d)
    (hc : t.columns[k]? = some c) (hauto : d.autoincrement = true) (hoptional : d.required = false)
    (hout : input.LeavesOut t.schema k) (hpasses : t.Passes input k) (shown : String) :
    (t.insert input).2 = .error (.overflow d.name shown) ↔
      d.successor c = .error (.overflow d.name shown) := by
  rw [h.insert_error_of_leavesOut hd hc hout rfl, ColumnDecl.encodeSlot_eq_overflow,
    ColumnDecl.slotValue_none hauto hoptional]
  exact and_iff_right hpasses

theorem Sound.insert_eq_overflow (h : t.Sound config) (hd : t.schema.columns[k]? = some d)
    (hcounts : d.Counts) (hout : input.LeavesOut t.schema k) (hpasses : t.Passes input k)
    (shown : String) :
    (t.insert input).2 = .error (.overflow d.name shown) ↔
      shown = "9223372036854775807" ∧
        ∃ m, t.rowCount = m + 1 ∧ t.value? m k = some (.integer Int64.maxValue) := by
  obtain ⟨c, hc, hfits, hget⟩ := h.exists_column hd
  rw [h.insert_overflow_iff hd hc hcounts.auto hcounts.optional hout hpasses]
  rcases hcounts.successor_eq hfits with ⟨hzero, hfirst⟩ | ⟨m, i, hm, hi, hnext⟩
  · rw [hfirst]
    refine iff_of_false (fun h => by cases h) ?_
    rintro ⟨-, m, hm, -⟩
    omega
  · have hlast : t.value? m k = some (.integer i) := (hget m).symm.trans hi
    rw [hnext]
    split
    · next hroom =>
      refine iff_of_false (fun h => by cases h) ?_
      rintro ⟨-, m', hm', hmax⟩
      obtain rfl : m' = m := by omega
      rw [hlast] at hmax
      cases hmax
      exact absurd hroom (by decide)
    · next hroom =>
      have hmax : i = Int64.maxValue := by
        have hle := Int64.toInt_le i
        have hge : ¬i.toInt < Int64.maxValue.toInt := fun h => hroom (Int64.lt_iff_toInt_lt.mpr h)
        have hvalue : Int64.maxValue.toInt = 2 ^ 63 - 1 := rfl
        exact Int64.toInt_inj.mp (by omega)
      have hdisplay : toString Int64.maxValue.toInt = "9223372036854775807" := by decide +kernel
      rw [hmax, hdisplay]
      constructor
      · intro hshown
        cases hshown
        exact ⟨rfl, m, hm, by rw [hlast, hmax]⟩
      · rintro ⟨rfl, -⟩
        rfl

/-! ## Whole runs -/

/-- What a column that counts on holds after a run of insertions. -/
structure KeepsCount (t : Table) (inputs : List RowInput) (k : Nat) (d : ColumnDecl) : Prop where
  /-- Rows that are refused take no number away: the run is the one of the rows that are taken in. -/
  accepted : t.insertAll (t.accepted inputs) = t.insertAll inputs
  rowCount : (t.insertAll inputs).rowCount = t.rowCount + (t.accepted inputs).length
  /-- No slot is empty. -/
  filled : ∀ i < (t.insertAll inputs).rowCount,
    ∃ n, (t.insertAll inputs).value? i k = some (.integer n)
  /-- A row that leaves the column out has one more than the row before it. -/
  counted : ∀ r input, (t.accepted inputs)[r]? = some input → input.LeavesOut t.schema k →
    (t.insertAll inputs).CountedAt (t.rowCount + r) k
  /-- Counting ends with the greatest whole number. -/
  overflow : ∀ input, input.LeavesOut t.schema k → (t.insertAll inputs).Passes input k → ∀ shown,
    ((t.insertAll inputs).insert input).2 = .error (.overflow d.name shown) ↔
      shown = "9223372036854775807" ∧ ∃ m, (t.insertAll inputs).rowCount = m + 1 ∧
        (t.insertAll inputs).value? m k = some (.integer Int64.maxValue)
  refused : ∀ input e, ((t.insertAll inputs).insert input).2 = .error e →
    ((t.insertAll inputs).insert input).1 = t.insertAll inputs
  /-- In a table without rows, rows that leave the column out are counted from one. -/
  fromOne : t.rowCount = 0 → (∀ input ∈ inputs, input.LeavesOut t.schema k) →
    ∀ i < (t.insertAll inputs).rowCount,
      ∃ n, (t.insertAll inputs).value? i k = some (.integer n) ∧ n.toInt = i + 1

theorem Sound.exists_integer (h : t.Sound config) (hd : t.schema.columns[k]? = some d)
    (hcounts : d.Counts) (hi : i < t.rowCount) : ∃ n, t.value? i k = some (.integer n) := by
  obtain ⟨c, -, hfits, hget⟩ := h.exists_column hd
  obtain ⟨v, hv, hadmits⟩ := hfits.exists_get? hi
  have htype := hadmits.kind.type.resolve_left (hadmits.filled (.inr hcounts.auto))
  rw [hcounts.integer] at htype
  rw [hget] at hv
  cases v <;> cases htype
  exact ⟨_, hv⟩

/-- Where every row leaves the column out, each has its place as its number. -/
theorem Sound.counted_fromOne (h : t.Sound config) (hd : t.schema.columns[k]? = some d)
    (hcounts : d.Counts) (hzero : t.rowCount = 0)
    (hout : ∀ input ∈ inputs, input.LeavesOut t.schema k) (hi : i < (t.insertAll inputs).rowCount) :
    ∃ n, (t.insertAll inputs).value? i k = some (.integer n) ∧ n.toInt = i + 1 := by
  have hcounted : ∀ i < (t.insertAll inputs).rowCount, (t.insertAll inputs).CountedAt i k := by
    intro i hi
    have hlength : i < (t.accepted inputs).length := by
      rw [(h.growsBy_insertAll inputs).rowCount] at hi
      omega
    have hmem := (t.accepted_sublist inputs).subset (List.getElem_mem hlength)
    have := h.countedAt_of_accepted hd hcounts (List.getElem?_eq_getElem hlength) (hout _ hmem)
    rwa [hzero, Nat.zero_add] at this
  induction i with
  | zero =>
    obtain ⟨n, hn, ⟨-, hone⟩ | ⟨j, m, hj, -⟩⟩ := hcounted 0 hi
    · exact ⟨n, hn, hone⟩
    · cases hj
  | succ i ih =>
    obtain ⟨n, hn, ⟨hfirst, -⟩ | ⟨j, m, hj, hm, hnext⟩⟩ := hcounted (i + 1) hi
    · cases hfirst
    · obtain rfl : j = i := by omega
      obtain ⟨m', hm', hplace⟩ := ih (by omega)
      rw [hm] at hm'
      cases hm'
      refine ⟨n, hn, ?_⟩
      rw [hnext, hplace, Nat.cast_succ]

/-- Whatever rows a reachable table gets offered, a column that counts on holds what it should. -/
theorem keepsCount_of_reachable (h : t.Reachable config) (hd : t.schema.columns[k]? = some d)
    (hcounts : d.Counts) (inputs : List RowInput) : t.KeepsCount inputs k d := by
  have hrun := h.sound.growsBy_insertAll inputs
  have hsound := (h.insertAll inputs).sound
  have hd' : (t.insertAll inputs).schema.columns[k]? = some d := by rw [hrun.schema, hd]
  refine ⟨h.sound.insertAll_accepted inputs, hrun.rowCount, ?_, ?_, ?_, ?_, ?_⟩
  · intro i hi
    exact hsound.exists_integer hd' hcounts hi
  · intro r input hr hout
    exact h.sound.countedAt_of_accepted hd hcounts hr hout
  · intro input hout hpasses shown
    rw [← hrun.schema] at hout
    exact hsound.insert_eq_overflow hd' hcounts hout hpasses shown
  · intro input e he
    exact (hsound.takes input).refused e he
  · intro hzero hout i hi
    exact h.sound.counted_fromOne hd hcounts hzero hout hi

/-- Rows without an id, with one, with one that is none, with a name that is too long, and with the
greatest id. -/
def idRows : List RowInput :=
  [.positional [], .positional [.str "7"], .positional [.str "x"], .positional [.null, .str "unnamed"],
    .positional [], .positional [.str "9223372036854775807"], .named []]

/-- The rows without an id get one and eight; the others that have none are refused. -/
theorem keepsCount_of_reachable_ids :
    let d : ColumnDecl := ⟨"id", .integer, 19, false, false, true⟩
    ∃ db t, Database.new .default = .ok db ∧
      (db.run [.createWith "ids" [d, ⟨"name", .text, 4, false, false, false⟩]]).table? "ids" =
        some t ∧
      (t.schema.columns[0]? = some d ∧ (t.insertAll idRows).rows.map (·.head?) =
        [some (.integer 1), some (.integer 7), some (.integer 8), some (.integer Int64.maxValue)]) ∧
      t.KeepsCount idRows 0 d :=
  Database.exists_table_of_run
    (fun t => decide (t.schema.columns[0]? = some ⟨"id", .integer, 19, false, false, true⟩ ∧
      (t.insertAll idRows).rows.map (·.head?) =
        [some (.integer 1), some (.integer 7), some (.integer 8), some (.integer Int64.maxValue)]))
    (by decide +kernel) fun _ t hdb ht htest => by
      have htest := of_decide_eq_true htest
      have ht := ((Database.governed_new hdb).run _).tables _ t ht
      exact ⟨htest, keepsCount_of_reachable ht htest.1 ⟨rfl, rfl, rfl⟩ idRows⟩

end Table

end TypedTables
