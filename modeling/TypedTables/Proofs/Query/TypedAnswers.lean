import TypedTables.Proofs.Query.Indexed

/-!
# Typed answers

Every row of an answer has a value for each column that the answer names, and one of the type of that
column or null (`Query.Answer.TypedBy`). With the looks by index, none of which misses, that is all
that can come of a query on a reachable table, unless it is refused (`Table.Answerable`).
-/

namespace TypedTables

/-! ## What answers hold -/

namespace Query.Answer

def names : Answer → List String
  | .rows columns _ | .row columns _ => columns
  | .count _ => []

def returned : Answer → List Row
  | .rows _ found => found
  | .row _ found => found.toList
  | .count _ => []

def size : Answer → Nat
  | .count n => n
  | answer => answer.returned.length

/-- The names are those of columns of the schema, and every row has for each of these columns a value
of its type or null. -/
def TypedBy (s : Schema) (answer : Answer) : Prop :=
  ∃ ds : List ColumnDecl, answer.names = ds.map ColumnDecl.name ∧ (∀ d ∈ ds, d ∈ s.columns) ∧
    ∀ row ∈ answer.returned,
      List.Forall₂ (fun d v => v = .null ∨ v.columnType? = some d.type) ds row

end Query.Answer

/-! ## Columns of a plan -/

namespace Query.Plan

variable {s : Schema} {q : Query} {plan : Plan}

theorem exists_columns {keys : List String} {is : List Nat}
    (h : List.Forall₂ (fun key i => s.position? key = some i) keys is) :
    ∃ ds : List ColumnDecl, keys = ds.map ColumnDecl.name ∧ (∀ d ∈ ds, d ∈ s.columns) ∧
      List.Forall₂ (fun d i => s.columns[i]? = some d) ds is := by
  induction h with
  | nil => exact ⟨[], rfl, by simp, .nil⟩
  | @cons key i _ _ hi _ ih =>
    obtain ⟨ds, rfl, hmem, hds⟩ := ih
    have hname := Schema.names_getElem?_of_position? hi
    rw [Schema.names, List.getElem?_map, Option.map_eq_some_iff] at hname
    obtain ⟨d, hd, rfl⟩ := hname
    exact ⟨d :: ds, rfl, List.forall_mem_cons.mpr ⟨List.mem_of_getElem? hd, hmem⟩, .cons hd hds⟩

/-- The columns that a plan returns are those asked for, and it returns their values. -/
theorem PlansFor.exists_typed (h : PlansFor s q plan) :
    ∃ ds : List ColumnDecl, plan.columns s = ds.map ColumnDecl.name ∧ (∀ d ∈ ds, d ∈ s.columns) ∧
      ∀ row, s.Admits row →
        List.Forall₂ (fun d v => v = .null ∨ v.columnType? = some d.type) ds (plan.project row) := by
  rw [h.columns_eq]
  rcases readProjection_eq_ok h.projection with ⟨hnone, hasked⟩ | ⟨is, hsome, hasked⟩
  · refine ⟨s.columns, hasked, fun d hd => hd, fun row hrow => ?_⟩
    rw [project, hnone]
    exact hrow.imp fun d v hv => hv.kind.type
  · obtain ⟨ds, hnames, hmem, hds⟩ := exists_columns hasked
    refine ⟨ds, hnames, hmem, fun row hrow => ?_⟩
    rw [project, hsome]
    refine List.forall₂_map_right_iff.mpr (hds.imp fun d i hi => ?_)
    obtain ⟨hlt, rfl⟩ := List.getElem?_eq_some_iff.mp hi
    have hlt' : i < row.length := by rwa [← hrow.length_eq]
    rw [List.getD_eq_getElem _ _ hlt']
    exact (hrow.get hlt hlt').kind.type

/-! ## Rows of an answer -/

theorem exists_of_mem_returned {rows : List Row} {shown : Row}
    (h : shown ∈ (plan.run s rows).returned) : ∃ row ∈ rows, plan.project row = shown := by
  suffices hmatching : ∃ row ∈ scan plan.clause.holds plan.limit rows, plan.project row = shown by
    obtain ⟨row, hrow, hshown⟩ := hmatching
    exact ⟨row, mem_of_mem_scan hrow, hshown⟩
  unfold run at h
  generalize scan plan.clause.holds plan.limit rows = matching at h ⊢
  cases hreduction : plan.reduction with
  | none =>
    rw [hreduction] at h
    obtain ⟨row, hrow, rfl⟩ := List.mem_map.mp h
    exact ⟨row, (Sorting.sort_perm _ _).mem_iff.mp hrow, rfl⟩
  | some m =>
    rw [hreduction] at h
    cases m with
    | count => cases h
    | first =>
      obtain ⟨row, hrow, rfl⟩ := Option.map_eq_some_iff.mp (Option.mem_toList.mp h)
      exact ⟨row, List.mem_of_head? hrow, rfl⟩
    | last =>
      obtain ⟨row, hrow, rfl⟩ := Option.map_eq_some_iff.mp (Option.mem_toList.mp h)
      exact ⟨row, List.mem_of_getLast? hrow, rfl⟩

theorem length_toList_map_le {matching : List Row} {row : Option Row} {f : Row → Row}
    (h : matching = [] → row = none) : (row.map f).toList.length ≤ matching.length := by
  cases matching with
  | nil => simp [h rfl]
  | cons a matching => cases row <;> simp

theorem size_run_le (plan : Plan) (s : Schema) (rows : List Row) :
    (plan.run s rows).size ≤ (scan plan.clause.holds plan.limit rows).length := by
  unfold run
  generalize scan plan.clause.holds plan.limit rows = matching
  cases plan.reduction with
  | none =>
    show ((sortRows plan.order matching).map plan.project).length ≤ matching.length
    rw [List.length_map, sortRows, (Sorting.sort_perm _ _).length_eq]
  | some m =>
    cases m with
    | count => exact Nat.le_refl _
    | first => exact length_toList_map_le fun h => by rw [h, List.head?_nil]
    | last => exact length_toList_map_le fun h => by rw [h, List.getLast?_nil]

theorem PlansFor.typed (h : PlansFor s q plan) {rows : List Row}
    (hrows : ∀ row ∈ rows, s.Admits row) : (plan.run s rows).TypedBy s := by
  obtain ⟨ds, hnames, hmem, htyped⟩ := h.exists_typed
  have hreturned : ∀ shown ∈ (plan.run s rows).returned,
      List.Forall₂ (fun d v => v = .null ∨ v.columnType? = some d.type) ds shown := by
    intro shown hshown
    obtain ⟨row, hrow, rfl⟩ := exists_of_mem_returned hshown
    exact htyped row (hrows row hrow)
  -- A count names no columns; all other answers name those of the plan.
  by_cases hcount : plan.reduction = some .count
  · have hrun : (plan.run s rows).returned = [] ∧ (plan.run s rows).names = [] := by
      simp [run, hcount, Answer.returned, Answer.names]
    exact ⟨[], hrun.2, by simp, by simp [hrun.1]⟩
  · refine ⟨ds, ?_, hmem, hreturned⟩
    rw [← hnames]
    unfold run
    split
    · contradiction
    · rfl
    · rfl
    · rfl

theorem PlansFor.size_le_limit (h : PlansFor s q plan) (rows : List Row) {n : Int64}
    (hn : q.limit = some n) : ((plan.run s rows).size : Int) ≤ n.toInt := by
  have hlimit := h.limit
  rw [hn, readLimit] at hlimit
  split at hlimit
  · next hpos =>
    have hplan : plan.limit = some n.toInt.toNat := (Except.ok.inj hlimit).symm
    have hsize := size_run_le plan s rows
    rw [hplan, scan_some, List.length_take] at hsize
    omega
  · cases hlimit

theorem size_run_le_length (plan : Plan) (s : Schema) (rows : List Row) :
    (plan.run s rows).size ≤ rows.length := by
  refine Nat.le_trans (size_run_le plan s rows) ?_
  cases plan.limit with
  | none =>
    rw [scan_none]
    exact List.length_filter_le ..
  | some n =>
    rw [scan_some, List.length_take]
    exact Nat.le_trans (Nat.min_le_right ..) (List.length_filter_le ..)

end Query.Plan

/-! ## Answers of tables -/

namespace Table

/-- What can come of queries on a table: no look on the way is at an index where there is nothing, and
an answer that is given is typed and has no more rows than the limit allows or than are stored. -/
structure Answerable (t : Table) : Prop where
  slots : ∀ c ∈ t.columns, ∀ i, Indexed.slot c i = some (c.get? i)
  columns : ∀ name, Indexed.column t name = some (t.column? name)
  stored : ∀ i, Indexed.row t i = some (t.row? i)
  /-- No row is dropped. -/
  rows : Indexed.rows t = some t.rows ∧ t.rows.length = t.rowCount ∧ ∀ i, t.rows[i]? = t.row? i
  answers : ∀ q, Indexed.get t q = some (t.get q)
  typed : ∀ q answer, t.get q = .ok answer → answer.TypedBy t.schema
  limited : ∀ q answer, t.get q = .ok answer →
    answer.size ≤ t.rowCount ∧ ∀ n, q.limit = some n → (answer.size : Int) ≤ n.toInt

theorem answerable_of_reachable {config : Config} {t : Table} (h : t.Reachable config) :
    t.Answerable := by
  have hsound := h.sound
  have hplan : ∀ {q answer}, t.get q = .ok answer → ∃ plan, Query.Plan.PlansFor t.schema q plan ∧
      answer = plan.run t.schema t.rows := by
    intro q answer hget
    obtain ⟨plan, hplan, hrun⟩ := Outcome.bind_eq_ok.mp hget
    exact ⟨plan, Query.Plan.ofQuery_eq_ok hplan, (Except.ok.inj hrun).symm⟩
  refine ⟨fun c hc => ?_, Indexed.column_eq hsound, Indexed.row_eq hsound,
    ⟨Indexed.rows_eq hsound, hsound.rows_spec⟩, Indexed.get_eq hsound, fun q answer hget => ?_,
    fun q answer hget => ?_⟩
  · have haligned : ∀ c ∈ t.columns, c.Aligned :=
      Outcome.forall_mem_of_forall₂ (hsound.columns.imp fun _ _ hfits => hfits.aligned)
    exact Indexed.slot_eq (haligned c hc)
  · obtain ⟨plan, hplans, rfl⟩ := hplan hget
    exact hplans.typed fun row hrow => hsound.admits_of_mem_rows hrow
  · obtain ⟨plan, hplans, rfl⟩ := hplan hget
    refine ⟨?_, fun n hn => hplans.size_le_limit _ hn⟩
    have := Query.Plan.size_run_le_length plan t.schema t.rows
    rwa [hsound.rows_spec.1] at this

/-- Two columns in another order, of the first two rows that a clause holds for. -/
theorem answerable_of_reachable_points : ∃ db t, Database.new .default = .ok db ∧
    (db.run [
      .createWith "points" [⟨"id", .integer, 4, true, false, true⟩, ⟨"x", .number, 6, false, true, false⟩,
        ⟨"label", .text, 8, false, false, false⟩],
      .insert "points" (.named [("x", .str "2.5")]),
      .insert "points" (.named [("label", .str "low"), ("x", .str "0.5")]),
      .insert "points" (.named [("label", .str "far"), ("x", .str "9")]),
      .insert "points" (.positional [.null, .str "7"])]).table? "points" = some t ∧
    t.get { keys := some ["label", "id"], order := ["x:desc"], clause := ["x > 1", "or", "id == 9"],
            limit := some 2 } =
      .ok (.rows ["label", "id"] [[.text "far", .integer 3], [.null, .integer 1]]) ∧
    t.Reachable .default ∧ t.Answerable :=
  Database.exists_table_of_run
    (fun t => decide (t.get { keys := some ["label", "id"], order := ["x:desc"],
                              clause := ["x > 1", "or", "id == 9"], limit := some 2 } =
      .ok (.rows ["label", "id"] [[.text "far", .integer 3], [.null, .integer 1]])))
    (by decide +kernel) fun _ _ hdb ht hget => by
      have hreachable := ((Database.governed_new hdb).run _).tables _ _ ht
      exact ⟨of_decide_eq_true hget, hreachable, answerable_of_reachable hreachable⟩

end Table

end TypedTables
