import Mathlib.Data.List.GetD
import TypedTables.Proofs.Condition.Segments
import TypedTables.Proofs.Query.Answers

/-!
# Answers by index

An answer worked out by looks at the indices of arrays and lists. A look where there is nothing has no
result (`none`), and nothing stands in for it. On a sound table no look comes to that: every query has
the answer that it has with stand-ins (`Indexed.get_eq`).
-/

namespace TypedTables

open Query (Plan)

namespace Indexed

/-! ## Steps that all have a result -/

section Steps

variable {α β : Type} {f? : α → Option β} {f : α → β} {p? : α → Option Bool} {p : α → Bool}
  {items : List α}

theorem mapM_eq_map (h : ∀ a ∈ items, f? a = some (f a)) : items.mapM f? = some (items.map f) :=
  Outcome.mapM_eq_some.mpr (List.forall₂_map_right_iff.mpr (List.forall₂_same.mpr h))

theorem optionMapM_eq_map {item : Option α} (h : ∀ a, item = some a → f? a = some (f a)) :
    item.mapM f? = some (item.map f) := by
  cases item with
  | none => rfl
  | some a => simp [h a rfl]

theorem allM_eq_all (h : ∀ a ∈ items, p? a = some (p a)) : items.allM p? = some (items.all p) := by
  induction items with
  | nil => rfl
  | cons a items ih =>
    obtain ⟨ha, hitems⟩ := List.forall_mem_cons.mp h
    rw [List.allM, ha, List.all_cons, ih hitems]
    cases p a <;> rfl

theorem anyM_eq_any (h : ∀ a ∈ items, p? a = some (p a)) : items.anyM p? = some (items.any p) := by
  induction items with
  | nil => rfl
  | cons a items ih =>
    obtain ⟨ha, hitems⟩ := List.forall_mem_cons.mp h
    rw [List.anyM, ha, List.any_cons, ih hitems]
    cases p a <;> rfl

end Steps

/-! ## Slots and rows -/

/-- The value of a slot. Behind the last slot there is none; before it the mask and, where the slot is
not empty, the store are looked at. -/
def slot (c : Column) (i : Nat) : Option (Option Value) :=
  if c.size ≤ i then some none
  else do
    let empty ← c.empties[i]?
    if empty then some (some .null)
    else
      let v ← c.store.get? c.type i
      some (some v)

/-- The values of all columns in one place, up to a column that has none there. -/
def across (i : Nat) : List Column → Option (Option Row)
  | [] => some (some [])
  | c :: cs => do
    match ← slot c i with
    | none => some none
    | some v =>
      let row ← across i cs
      some (row.map (v :: ·))

def row (t : Table) (i : Nat) : Option (Option Row) :=
  if t.rowCount ≤ i then some none else across i t.columns

def rows (t : Table) : Option (List Row) := do
  let rows ← (List.range t.rowCount).mapM (row t)
  some (rows.filterMap id)

def column (t : Table) (name : String) : Option (Option Column) :=
  match t.schema.position? name with
  | none => some none
  | some i => do
    let c ← t.columns[i]?
    some (some c)

theorem slot_eq {c : Column} (h : c.Aligned) (i : Nat) : slot c i = some (c.get? i) := by
  unfold slot
  rcases Nat.lt_or_ge i c.size with hi | hi
  · obtain ⟨v, hv, -⟩ := Store.exists_get? h.store (i := i) (by rw [h.size]; exact hi)
    rw [if_neg (Nat.not_le.mpr hi), Column.get?, Array.getElem?_eq_getElem hi]
    cases c.empties[i] with
    | true => rfl
    | false => simp [hv]
  · rw [if_pos hi, Column.get?_eq_none hi]

theorem across_eq {ds : List ColumnDecl} {n : Nat} {cs : List Column} (h : ColumnsFit ds n cs)
    (i : Nat) : across i cs = some (cs.mapM (·.get? i)) := by
  induction h with
  | nil => rfl
  | @cons _ c _ cs hc _ ih =>
    rw [across, slot_eq hc.aligned, ih, List.mapM_cons]
    cases c.get? i with
    | none => rfl
    | some v => cases cs.mapM (·.get? i) <;> rfl

/-! ## Conditions -/

def condition (c : Condition) (row : Row) : Option Bool := do
  let v ← row[c.column]?
  some (!v.isNull && c.comparator.holds v c.literal)

def clause (t : WhereClause) (row : Row) : Option Bool := do
  if ← t.allOf.allM (condition · row) then
    if ← t.noneOf.anyM (condition · row) then some false
    else t.anyOf.allM fun group => group.anyM (condition · row)
  else some false

theorem condition_eq {c : Condition} {row : Row} (h : c.column < row.length) :
    condition c row = some (c.holds row) := by
  rw [condition, Condition.holds, List.getElem?_eq_getElem h]
  rfl

theorem clause_eq {t : WhereClause} {row : Row}
    (h : ∀ c ∈ t.allOf ++ (t.noneOf ++ t.anyOf.flatten), c.column < row.length) :
    clause t row = some (t.holds row) := by
  have hall : t.allOf.allM (condition · row) = some (t.allOf.all (·.holds row)) :=
    allM_eq_all fun c hc => condition_eq (h c (by simp [hc]))
  have hnone : t.noneOf.anyM (condition · row) = some (t.noneOf.any (·.holds row)) :=
    anyM_eq_any fun c hc => condition_eq (h c (by simp [hc]))
  have hany : (t.anyOf.allM fun group => group.anyM (condition · row)) =
      some (t.anyOf.all fun group => group.any (·.holds row)) :=
    allM_eq_all fun group hgroup => anyM_eq_any fun c hc => condition_eq (h c (by
      simp only [List.mem_append, List.mem_flatten]
      exact .inr (.inr ⟨group, hgroup, hc⟩)))
  rw [clause, hall, hnone, hany, WhereClause.holds]
  cases t.allOf.all (·.holds row) <;> cases t.noneOf.any (·.holds row) <;> rfl

/-! ## Scanning -/

def scan (keep : Row → Option Bool) : Option Nat → List Row → Option (List Row)
  | _, [] => some []
  | some 0, _ :: _ => some []
  | limit, row :: rows => do
    if ← keep row then
      let kept ← scan keep (limit.map (· - 1)) rows
      some (row :: kept)
    else scan keep limit rows

theorem scan_eq {keep? : Row → Option Bool} {keep : Row → Bool} {rows : List Row}
    (h : ∀ row ∈ rows, keep? row = some (keep row)) (limit : Option Nat) :
    scan keep? limit rows = some (TypedTables.scan keep limit rows) := by
  induction rows generalizing limit with
  | nil => simp [scan, TypedTables.scan]
  | cons row rows ih =>
    obtain ⟨hrow, hrows⟩ := List.forall_mem_cons.mp h
    by_cases hlimit : limit = some 0
    · rw [hlimit, scan, TypedTables.scan]
    · rw [scan, TypedTables.scan, hrow, ih hrows, ih hrows]
      · cases keep row <;> rfl
      · simpa using hlimit
      · simpa using hlimit

/-! ## Sorting -/

section Sorting

variable {α : Type} {cmp? : α → α → Option Ordering} {cmp : α → α → Ordering}

def insert (cmp? : α → α → Option Ordering) (a : α) : List α → Option (List α)
  | [] => some [a]
  | last :: before => do
    if (← cmp? a last) = .lt then
      let items ← insert cmp? a before
      some (last :: items)
    else some (a :: last :: before)

def sort (cmp? : α → α → Option Ordering) (items : List α) : Option (List α) := do
  let descending ← items.foldlM (fun sorted a => insert cmp? a sorted) []
  some descending.reverse

theorem insert_eq {a : α} {items : List α} (h : ∀ b ∈ items, cmp? a b = some (cmp a b)) :
    insert cmp? a items = some (Sorting.insert cmp a items) := by
  induction items with
  | nil => rfl
  | cons last before ih =>
    obtain ⟨hlast, hbefore⟩ := List.forall_mem_cons.mp h
    rw [insert, Sorting.insert, hlast, ih hbefore]
    simp only [Option.bind_eq_bind, Option.bind_some]
    split <;> rfl

theorem sort_eq {items : List α} (h : ∀ a ∈ items, ∀ b ∈ items, cmp? a b = some (cmp a b)) :
    sort cmp? items = some (Sorting.sort cmp items) := by
  have hdescending : items.foldlM (fun sorted a => insert cmp? a sorted) [] =
      some (Sorting.descending cmp items) := by
    -- An item is only compared with those taken in before it.
    induction items using List.reverseRecOn with
    | nil => rfl
    | append_singleton front a ih =>
      have hfront := ih fun b hb c hc =>
        h b (List.mem_append_left _ hb) c (List.mem_append_left _ hc)
      have hinsert : insert cmp? a (Sorting.descending cmp front) =
          some (Sorting.insert cmp a (Sorting.descending cmp front)) := insert_eq fun b hb => by
        have hb := (Sorting.descending_perm cmp front).mem_iff.mp hb
        exact h a (by simp) b (List.mem_append_left _ hb)
      rw [List.foldlM_append, hfront, Sorting.descending_append]
      simpa using hinsert
  rw [sort, hdescending]
  rfl

end Sorting

def compareIn (column : Nat × Direction) (a b : Row) : Option Ordering := do
  let v ← a[column.1]?
  let w ← b[column.1]?
  let o := v.compare w
  match column.2 with
  | .ascending => some o
  | .descending => some o.swap

def compareRows : List (Nat × Direction) → Row → Row → Option Ordering
  | [], _, _ => some .eq
  | column :: order, a, b => do
    let o ← compareIn column a b
    if o = .eq then compareRows order a b else some o

theorem compareIn_eq {column : Nat × Direction} {a b : Row} (ha : column.1 < a.length)
    (hb : column.1 < b.length) : compareIn column a b = some (TypedTables.compareIn column a b) := by
  rw [compareIn, TypedTables.compareIn, List.getElem?_eq_getElem ha, List.getElem?_eq_getElem hb,
    List.getD_eq_getElem _ _ ha, List.getD_eq_getElem _ _ hb]
  cases column.2 <;> rfl

theorem compareRows_eq {order : List (Nat × Direction)} {a b : Row}
    (ha : ∀ column ∈ order, column.1 < a.length) (hb : ∀ column ∈ order, column.1 < b.length) :
    compareRows order a b = some (TypedTables.compareRows order a b) := by
  induction order with
  | nil => rfl
  | cons column order ih =>
    obtain ⟨hacolumn, ha⟩ := List.forall_mem_cons.mp ha
    obtain ⟨hbcolumn, hb⟩ := List.forall_mem_cons.mp hb
    rw [compareRows, TypedTables.compareRows, compareIn_eq hacolumn hbcolumn, ih ha hb]
    cases TypedTables.compareIn column a b <;> rfl

/-! ## Answers -/

def project (p : Plan) (row : Row) : Option Row :=
  match p.projection with
  | none => some row
  | some is => is.mapM (row[·]?)

def columns (p : Plan) (s : Schema) : Option (List String) :=
  match p.projection with
  | none => some s.names
  | some is => is.mapM (s.names[·]?)

def run (p : Plan) (s : Schema) (rows : List Row) : Option Query.Answer := do
  let matching ← scan (clause p.clause) p.limit rows
  let columns ← columns p s
  match p.reduction with
  | some .count => some (.count matching.length)
  | some .first =>
    let row ← matching.head?.mapM (project p)
    some (.row columns row)
  | some .last =>
    let row ← matching.getLast?.mapM (project p)
    some (.row columns row)
  | none =>
    let sorted ← sort (compareRows p.order) matching
    let rows ← sorted.mapM (project p)
    some (.rows columns rows)

def get (t : Table) (q : Query) : Option (Except QueryError Query.Answer) :=
  match Plan.ofQuery t.schema q with
  | .error e => some (.error e)
  | .ok plan => do
    let rows ← rows t
    let answer ← run plan t.schema rows
    some (.ok answer)

end Indexed

/-! ## Positions of plans -/

/-- All positions of a plan are below this one. -/
structure Query.Plan.Below (plan : Plan) (n : Nat) : Prop where
  projection : ∀ is, plan.projection = some is → ∀ i ∈ is, i < n
  order : ∀ column ∈ plan.order, column.1 < n
  clause : ∀ c ∈ plan.clause.allOf ++ (plan.clause.noneOf ++ plan.clause.anyOf.flatten),
    c.column < n

section Positions

variable {s : Schema} {q : Query} {plan : Plan}

theorem Condition.column_lt_of_read {text : String} {c : Condition} (h : read s text = .ok c) :
    c.column < s.columns.length := by
  obtain ⟨parts, -, h⟩ := Outcome.bind_eq_ok.mp h
  split at h
  · next i hi =>
    cases h
    exact Schema.lt_of_position? hi
  · cases h

theorem WhereClause.column_lt_of_read {items : List String} {t : WhereClause}
    (h : WhereClause.read s items = .ok t) :
    ∀ c ∈ t.allOf ++ (t.noneOf ++ t.anyOf.flatten), c.column < s.columns.length := by
  obtain ⟨p, hp, h⟩ := Outcome.bind_eq_ok.mp h
  obtain ⟨cs, hcs, hreads⟩ := PartialClause.reads_foldlM Reads.start hp
  unfold PartialClause.finish at h
  split at h
  · cases h
  · cases h
    have hclause := hreads.says
    have hall : ∀ l ∈ cs, l.condition.column < s.columns.length :=
      Outcome.forall_mem_of_forall₂ ((Outcome.mapM_eq_ok.mp hcs).imp fun _ l hread => by
        obtain ⟨c, hc, rfl⟩ := Outcome.map_eq_ok.mp hread
        exact Condition.column_lt_of_read hc)
    intro c hc
    obtain ⟨l, hl, rfl⟩ := List.mem_map.mp (hclause.perm.mem_iff.mp hc)
    exact hall l hl

theorem Query.Plan.PlansFor.below (h : PlansFor s q plan) : plan.Below s.columns.length where
  projection is his := by
    rcases readProjection_eq_ok h.projection with ⟨hnone, -⟩ | ⟨is', hsome, hasked⟩
    · rw [hnone] at his
      cases his
    · obtain rfl : is' = is := Option.some.inj (hsome.symm.trans his)
      exact Outcome.forall_mem_of_forall₂ (hasked.imp fun _ _ h => Schema.lt_of_position? h)
  order := by
    obtain ⟨keys, -, hsorts⟩ := readOrder_eq_ok h.order
    exact Outcome.forall_mem_of_forall₂ (hsorts.imp fun _ _ h => Schema.lt_of_position? h.position)
  clause := WhereClause.column_lt_of_read h.clause

end Positions

/-! ## No look misses -/

namespace Indexed

section Plans

variable {s : Schema} {plan : Plan} {row : Row} {rows : List Row}

theorem project_eq (h : plan.Below s.columns.length) (hrow : row.length = s.columns.length) :
    project plan row = some (plan.project row) := by
  unfold project Plan.project
  cases hp : plan.projection with
  | none => rfl
  | some is =>
    refine mapM_eq_map fun i hi => ?_
    have hi : i < row.length := hrow ▸ h.projection is hp i hi
    rw [List.getElem?_eq_getElem hi, List.getD_eq_getElem _ _ hi]

theorem columns_eq (h : plan.Below s.columns.length) : columns plan s = some (plan.columns s) := by
  unfold columns Plan.columns
  cases hp : plan.projection with
  | none => rfl
  | some is =>
    refine mapM_eq_map fun i hi => ?_
    have hi : i < s.names.length := by simpa [Schema.names] using h.projection is hp i hi
    rw [List.getElem?_eq_getElem hi, List.getD_eq_getElem _ _ hi]

theorem run_eq (h : plan.Below s.columns.length)
    (hrows : ∀ row ∈ rows, row.length = s.columns.length) :
    run plan s rows = some (plan.run s rows) := by
  have hscan : scan (clause plan.clause) plan.limit rows =
      some (TypedTables.scan plan.clause.holds plan.limit rows) :=
    scan_eq (fun row hrow => clause_eq fun c hc => hrows row hrow ▸ h.clause c hc) _
  rw [run, hscan, columns_eq h, Plan.run]
  have hmatching : ∀ row ∈ TypedTables.scan plan.clause.holds plan.limit rows,
      row.length = s.columns.length := fun row hrow => hrows row (mem_of_mem_scan hrow)
  generalize TypedTables.scan plan.clause.holds plan.limit rows = matching at hmatching
  have hproject : ∀ row ∈ matching, project plan row = some (plan.project row) :=
    fun row hrow => project_eq h (hmatching row hrow)
  simp only [Option.bind_eq_bind, Option.bind_some]
  cases plan.reduction with
  | none =>
    have hsort : sort (compareRows plan.order) matching = some (sortRows plan.order matching) :=
      sort_eq fun a ha b hb => compareRows_eq
        (fun column hcolumn => hmatching a ha ▸ h.order column hcolumn)
        (fun column hcolumn => hmatching b hb ▸ h.order column hcolumn)
    have hrows : (sortRows plan.order matching).mapM (project plan) =
        some ((sortRows plan.order matching).map plan.project) :=
      mapM_eq_map fun row hrow => hproject row ((Sorting.sort_perm _ _).mem_iff.mp hrow)
    rw [hsort, Option.bind_some, hrows]
    rfl
  | some m =>
    cases m with
    | count => rfl
    | first =>
      rw [optionMapM_eq_map fun row hrow => hproject row (List.mem_of_head? hrow)]
      rfl
    | last =>
      rw [optionMapM_eq_map fun row hrow => hproject row (List.mem_of_getLast? hrow)]
      rfl

end Plans

section Tables

variable {config : Config} {t : Table}

theorem row_eq (h : t.Sound config) (i : Nat) : row t i = some (t.row? i) := by
  unfold row
  rcases Nat.lt_or_ge i t.rowCount with hi | hi
  · rw [if_neg (Nat.not_le.mpr hi), across_eq h.columns, Table.row?, if_pos hi]
  · rw [if_pos hi, Table.row?_eq_none hi]

theorem rows_eq (h : t.Sound config) : rows t = some t.rows := by
  have hrows : (List.range t.rowCount).mapM (row t) = some ((List.range t.rowCount).map t.row?) :=
    mapM_eq_map fun i _ => row_eq h i
  rw [rows, hrows, Table.rows]
  simp

theorem column_eq (h : t.Sound config) (name : String) : column t name = some (t.column? name) := by
  unfold column Table.column?
  cases hi : t.schema.position? name with
  | none => rfl
  | some i =>
    have hlt : i < t.columns.length := by
      rw [← h.columns.length_eq]
      exact Schema.lt_of_position? hi
    simp [List.getElem?_eq_getElem hlt]

theorem get_eq (h : t.Sound config) (q : Query) : get t q = some (t.get q) := by
  unfold get
  cases hplan : Plan.ofQuery t.schema q with
  | error e => simp [Table.get, Query.run, hplan]
  | ok plan =>
    have hbelow := (Plan.ofQuery_eq_ok hplan).below
    have hlengths : ∀ row ∈ t.rows, row.length = t.schema.columns.length := fun row hrow =>
      (h.admits_of_mem_rows hrow).length_eq.symm
    simp [rows_eq h, run_eq hbelow hlengths, Table.get, Query.run, hplan]

end Tables

end Indexed

end TypedTables
