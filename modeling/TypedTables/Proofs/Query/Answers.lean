import TypedTables.Proofs.Database.Runs
import TypedTables.Proofs.Query.Sorted

/-!
# Answers of tables

What a query finds among the rows of a table (`Query.found`), what it is answered with
(`Query.AnsweredBy`), and that a table answers so every query for which there is a plan.
-/

namespace TypedTables

open Text

variable {s : Schema} {q : Query} {plan : Query.Plan}

/-! ## Scanning -/

theorem scan_none (keep : Row → Bool) (rows : List Row) :
    scan keep none rows = rows.filter keep := by
  induction rows with
  | nil => rfl
  | cons row rows ih =>
    rw [scan, List.filter_cons]
    · simp only [Option.map_none, ih]
    · simp

theorem scan_some (keep : Row → Bool) (n : Nat) (rows : List Row) :
    scan keep (some n) rows = (rows.filter keep).take n := by
  induction rows generalizing n with
  | nil => simp [scan]
  | cons row rows ih =>
    cases n with
    | zero => simp [scan]
    | succ n =>
      rw [scan, List.filter_cons]
      · split
        · rw [List.take_succ_cons, Option.map_some, Nat.add_sub_cancel, ih]
        · exact ih (n + 1)
      · simp

theorem mem_of_mem_scan {keep : Row → Bool} {limit : Option Nat} {rows : List Row} {row : Row}
    (h : row ∈ scan keep limit rows) : row ∈ rows := by
  cases limit with
  | none =>
    rw [scan_none] at h
    exact List.mem_of_mem_filter h
  | some n =>
    rw [scan_some] at h
    exact List.mem_of_mem_filter (List.mem_of_mem_take h)

/-! ## What a query asks for -/

namespace Query

/-- The rows that the clause is true of, no more of them than the limit. -/
def found (q : Query) (clause : WhereClause) (rows : List Row) : List Row :=
  match q.limit with
  | none => rows.filter clause.holds
  | some n => (rows.filter clause.holds).take n.toInt.toNat

def AsksFor (q : Query) (m : Reduction) : Prop :=
  ∃ word, q.method = some word ∧ sameIgnoringCase m.name word = true

/-- The answer is what the query asks for of the rows it finds: how many there are, the first or the
last of them in the order in which they are stored, or all of them, sorted. -/
inductive AnsweredBy (q : Query) (s : Schema) (found : List Row) : Query.Answer → Prop where
  | count (method : q.AsksFor .count) : AnsweredBy q s found (.count found.length)
  | first {row : Option Row} (method : q.AsksFor .first)
    (shown : Option.Rel (s.Shows · (q.asked s) ·) found.head? row) :
    AnsweredBy q s found (.row (q.asked s) row)
  | last {row : Option Row} (method : q.AsksFor .last)
    (shown : Option.Rel (s.Shows · (q.asked s) ·) found.getLast? row) :
    AnsweredBy q s found (.row (q.asked s) row)
  | all {keys : List SortKey} {sorted rows : List Row} (method : q.method = none)
    (written : List.Forall₂ SortKey.WrittenAs q.order keys)
    (stable : s.StablySorted keys found sorted)
    (shown : List.Forall₂ (s.Shows · (q.asked s) ·) sorted rows) :
    AnsweredBy q s found (.rows (q.asked s) rows)

end Query

/-! ## Plans -/

namespace Query.Plan

/-- Every part of a plan comes from the part of the query that it is for. -/
structure PlansFor (s : Schema) (q : Query) (plan : Plan) : Prop where
  projection : readProjection s q.keys = .ok plan.projection
  order : q.order.mapM (readOrderEntry s) = .ok plan.order
  clause : WhereClause.read s q.clause = .ok plan.clause
  limit : readLimit q.limit = .ok plan.limit
  reduction : readReduction q.method = .ok plan.reduction

theorem ofQuery_eq_ok (h : ofQuery s q = .ok plan) : PlansFor s q plan := by
  obtain ⟨projection, hprojection, h⟩ := Outcome.bind_eq_ok.mp h
  obtain ⟨order, horder, h⟩ := Outcome.bind_eq_ok.mp h
  obtain ⟨clause, hclause, h⟩ := Outcome.bind_eq_ok.mp h
  obtain ⟨limit, hlimit, h⟩ := Outcome.bind_eq_ok.mp h
  obtain ⟨reduction, hreduction, h⟩ := Outcome.bind_eq_ok.mp h
  split at h
  · cases h
  · cases h
    exact ⟨hprojection, horder, Outcome.mapError_eq_ok.mp hclause, hlimit, hreduction⟩

theorem scan_eq_found {limit : Option Nat} (h : readLimit q.limit = .ok limit)
    (clause : WhereClause) (rows : List Row) :
    scan clause.holds limit rows = q.found clause rows := by
  unfold found
  cases hlimit : q.limit with
  | none =>
    rw [hlimit] at h
    cases h
    exact scan_none clause.holds rows
  | some n =>
    rw [hlimit, readLimit] at h
    split at h
    · cases h
      exact scan_some clause.holds n.toInt.toNat rows
    · cases h

theorem ofName?_eq_some {word : String} {m : Reduction} (h : Reduction.ofName? word = some m) :
    sameIgnoringCase m.name word = true :=
  sameIgnoringCase_of_find? h

theorem readReduction_eq_ok {reduction : Option Reduction}
    (h : readReduction q.method = .ok reduction) :
    (reduction = none ∧ q.method = none) ∨ ∃ m, reduction = some m ∧ q.AsksFor m := by
  unfold readReduction at h
  split at h
  · next hnone =>
    cases h
    exact .inl ⟨rfl, hnone⟩
  · next word hword =>
    split at h
    · next m hm =>
      cases h
      exact .inr ⟨m, rfl, word, hword, ofName?_eq_some hm⟩
    · cases h

theorem PlansFor.shows (h : PlansFor s q plan) (hs : s.names.Nodup) {row : Row}
    (hrow : s.Admits row) : s.Shows row (q.asked s) (plan.project row) := by
  have hlen := hrow.length_eq.symm
  rcases readProjection_eq_ok h.projection with ⟨hnone, hasked⟩ | ⟨is, hsome, hasked⟩
  · rw [hasked, project, hnone]
    exact Schema.shows_names hs hlen
  · rw [project, hsome]
    exact List.forall₂_map_right_iff.mpr
      (hasked.imp fun _ _ hi => Schema.value?_of_position? hlen hi)

theorem PlansFor.columns_eq (h : PlansFor s q plan) : plan.columns s = q.asked s := by
  rcases readProjection_eq_ok h.projection with ⟨hnone, hasked⟩ | ⟨is, hsome, hasked⟩
  · rw [hasked, columns, hnone]
  · rw [columns, hsome]
    show is.map (s.names.getD · "") = q.asked s
    clear hsome
    generalize q.asked s = asked at hasked
    induction hasked with
    | nil => rfl
    | cons hi _ ih => rw [List.map_cons, ih, Schema.names_getD_of_position? hi]

end Query.Plan

/-! ## Answers -/

theorem rel_map_shows {names : List String} {f : Row → Row} {row : Option Row}
    (h : ∀ r, row = some r → s.Shows r names (f r)) :
    Option.Rel (s.Shows · names ·) row (row.map f) := by
  cases row with
  | none => exact .none
  | some r => exact .some (h r rfl)

theorem Query.Plan.PlansFor.run_answers (h : PlansFor s q plan) (hs : s.names.Nodup) {rows : List Row}
    (hrows : ∀ row ∈ rows, s.Admits row) :
    q.AnsweredBy s (q.found plan.clause rows) (plan.run s rows) := by
  have hfound : ∀ row ∈ q.found plan.clause rows, s.Admits row := by
    intro row hrow
    rw [← scan_eq_found h.limit] at hrow
    exact hrows row (mem_of_mem_scan hrow)
  have hshows : ∀ row ∈ q.found plan.clause rows, s.Shows row (q.asked s) (plan.project row) :=
    fun row hrow => h.shows hs (hfound row hrow)
  unfold run
  rw [scan_eq_found h.limit, h.columns_eq]
  rcases readReduction_eq_ok h.reduction with ⟨hnone, hmethod⟩ | ⟨m, hsome, hmethod⟩
  · rw [hnone]
    obtain ⟨keys, hwritten, hsorts⟩ := readOrder_eq_ok h.order
    have hstable := stablySorted_sortRows hsorts hfound
    refine .all hmethod hwritten hstable (List.forall₂_map_right_iff.mpr ?_)
    refine List.forall₂_same.mpr fun row hrow => hshows row ?_
    exact (Sorting.sort_perm _ _).mem_iff.mp hrow
  · rw [hsome]
    cases m with
    | count => exact .count hmethod
    | first => exact .first hmethod (rel_map_shows fun r hr => hshows r (List.mem_of_head? hr))
    | last => exact .last hmethod (rel_map_shows fun r hr => hshows r (List.mem_of_getLast? hr))

/-- What a plan that only has a clause returns are all rows for which the clause holds, in the order in
which they are stored. -/
theorem Query.Plan.PlansFor.run_clause (h : PlansFor s q plan) (horder : q.order = [])
    (hlimit : q.limit = none) (hmethod : q.method = none) (rows : List Row) :
    plan.run s rows = .rows (q.asked s) ((rows.filter plan.clause.holds).map plan.project) := by
  have horder : plan.order = [] := by
    have := h.order
    rw [horder] at this
    exact (Except.ok.inj this).symm
  have hlimit : plan.limit = none := by
    have := h.limit
    rw [hlimit] at this
    exact (Except.ok.inj this).symm
  have hreduction : plan.reduction = none := by
    have := h.reduction
    rw [hmethod] at this
    exact (Except.ok.inj this).symm
  have hsort : ∀ rows, sortRows [] rows = rows :=
    Sorting.sort_eq_self fun _ _ => Ordering.noConfusion
  rw [run, hreduction, hlimit, horder, scan_none, hsort, h.columns_eq]

theorem Table.get_clause (t : Table) (items : List String) :
    t.get { clause := items } = ((WhereClause.read t.schema items).mapError .condition).map
      fun clause => .rows t.schema.names (t.rows.filter clause.holds) := by
  cases hclause : WhereClause.read t.schema items with
  | error e =>
    simp only [Table.get, Query.run, Query.Plan.ofQuery, Query.Plan.readClause, hclause]
    rfl
  | ok clause =>
    have hplan : Query.Plan.ofQuery t.schema { clause := items } =
        .ok ⟨none, [], clause, none, none⟩ := by
      simp only [Query.Plan.ofQuery, Query.Plan.readClause, hclause]
      rfl
    have hrun := (Query.Plan.ofQuery_eq_ok hplan).run_clause rfl rfl rfl t.rows
    have hproject : ∀ rows : List Row,
        rows.map (Query.Plan.project ⟨none, [], clause, none, none⟩) = rows := fun rows =>
      List.map_id rows
    rw [hproject] at hrun
    rw [Table.get, Query.run, hplan, Outcome.ok_bind, hrun]
    rfl

/-- A table answers a query for which there is a plan with what the query asks for of the rows that
are stored. -/
theorem Table.get_answers {config : Config} {t : Table} (h : t.Reachable config)
    (hplan : Query.Plan.ofQuery t.schema q = .ok plan) :
    ∃ stored clause answer, stored.length = t.rowCount ∧ (∀ i, stored[i]? = t.row? i) ∧
      WhereClause.read t.schema q.clause = .ok clause ∧ t.get q = .ok answer ∧
      q.AnsweredBy t.schema (q.found clause stored) answer := by
  have hsound := h.sound
  have hplans := Query.Plan.ofQuery_eq_ok hplan
  obtain ⟨hlength, hstored⟩ := hsound.rows_spec
  refine ⟨t.rows, plan.clause, plan.run t.schema t.rows, hlength, hstored, hplans.clause, ?_, ?_⟩
  · rw [Table.get, Query.run, hplan]
    rfl
  · exact hplans.run_answers hsound.schema.distinct fun row hrow => hsound.admits_of_mem_rows hrow

def dearestFruits : Query := { keys := some ["name"], order := ["price : desc"], limit := some 3 }

/-- Three of four fruits, two of which have the same price and one has none. -/
theorem Table.get_answers_fruits : ∃ db t, Database.new .default = .ok db ∧
    (db.run [
      .createWith "fruits" [⟨"name", .text, 8, true, true, false⟩,
        ⟨"price", .integer, 4, false, false, false⟩],
      .insert "fruits" (.positional [.str "plum", .str "2"]),
      .insert "fruits" (.positional [.str "fig"]),
      .insert "fruits" (.positional [.str "lemon", .str "2"]),
      .insert "fruits" (.positional [.str "pear", .str "3"])]).table? "fruits" = some t ∧
    t.get dearestFruits = .ok (.rows ["name"] [[.text "plum"], [.text "lemon"], [.text "fig"]]) ∧
    ∃ stored clause answer, stored.length = t.rowCount ∧ (∀ i, stored[i]? = t.row? i) ∧
      WhereClause.read t.schema dearestFruits.clause = .ok clause ∧
      t.get dearestFruits = .ok answer ∧
      dearestFruits.AnsweredBy t.schema (dearestFruits.found clause stored) answer :=
  Database.exists_table_of_run
    (fun t => decide (t.get dearestFruits =
      .ok (.rows ["name"] [[.text "plum"], [.text "lemon"], [.text "fig"]])))
    (by decide +kernel) fun db t hdb ht hget => by
      have hget := of_decide_eq_true hget
      obtain ⟨plan, hplan, -⟩ := Outcome.bind_eq_ok.mp hget
      have ht := ((Database.governed_new hdb).run _).tables _ t ht
      exact ⟨hget, Table.get_answers ht hplan⟩

end TypedTables
