import TypedTables.Proofs.Query.Answers
import TypedTables.Proofs.Table.Origins

/-!
# Columns that a query does not mention

A plan only looks at the columns of its projection, its order and its conditions
(`Query.Plan.Mentions`). Rows that are alike in them are kept, sorted and shown alike, so two tables
whose rows are alike get the same answer, whatever is in the other columns.
-/

namespace TypedTables

/-! ## Sorting -/

namespace Sorting

variable {α β : Type} {R : α → β → Prop} {cmp : α → α → Ordering} {cmp' : β → β → Ordering}

theorem insert_forall₂ (hcmp : ∀ a b a' b', R a a' → R b b' → cmp a b = cmp' a' b') {a : α} {a' : β}
    {items : List α} {items' : List β} (ha : R a a') (h : List.Forall₂ R items items') :
    List.Forall₂ R (insert cmp a items) (insert cmp' a' items') := by
  induction h with
  | nil => exact .cons ha .nil
  | @cons last last' before before' hlast hbefore ih =>
    rw [insert, insert, hcmp a last a' last' ha hlast]
    split
    · exact .cons hlast ih
    · exact .cons ha (.cons hlast hbefore)

theorem sort_forall₂ (hcmp : ∀ a b a' b', R a a' → R b b' → cmp a b = cmp' a' b')
    {items : List α} {items' : List β} (h : List.Forall₂ R items items') :
    List.Forall₂ R (sort cmp items) (sort cmp' items') := by
  have hfold : ∀ sorted sorted', List.Forall₂ R sorted sorted' →
      List.Forall₂ R (items.foldl (fun sorted a => insert cmp a sorted) sorted)
        (items'.foldl (fun sorted a => insert cmp' a sorted) sorted') := by
    induction h with
    | nil => exact fun _ _ hsorted => hsorted
    | cons ha _ ih => exact fun _ _ hsorted => ih _ _ (insert_forall₂ hcmp ha hsorted)
  exact List.rel_reverse (hfold [] [] .nil)

end Sorting

/-! ## Rows that are alike in the columns of a plan -/

def WhereClause.conditions (t : WhereClause) : List Condition :=
  t.allOf ++ (t.noneOf ++ t.anyOf.flatten)

theorem Condition.holds_congr {c : Condition} {row row' : Row}
    (h : row[c.column]? = row'[c.column]?) : c.holds row = c.holds row' := by
  rw [holds, holds, h]

theorem WhereClause.holds_congr {t : WhereClause} {row row' : Row}
    (h : ∀ c ∈ t.conditions, row[c.column]? = row'[c.column]?) : t.holds row = t.holds row' := by
  have hsame : ∀ c ∈ t.conditions, c.holds row = c.holds row' := fun c hc =>
    Condition.holds_congr (h c hc)
  have hall : t.allOf.map (·.holds row) = t.allOf.map (·.holds row') :=
    List.map_congr_left fun c hc => hsame c (by simp [conditions, hc])
  have hnone : t.noneOf.map (·.holds row) = t.noneOf.map (·.holds row') :=
    List.map_congr_left fun c hc => hsame c (by simp [conditions, hc])
  have hany : t.anyOf.map (·.map (·.holds row)) = t.anyOf.map (·.map (·.holds row')) :=
    List.map_congr_left fun group hgroup => List.map_congr_left fun c hc =>
      hsame c (by simpa [conditions] using .inr (.inr ⟨group, hgroup, hc⟩))
  -- The clause looks at a row only through what its conditions say.
  have hholds : ∀ row, t.holds row = ((t.allOf.map (·.holds row)).all id &&
      !(t.noneOf.map (·.holds row)).any id &&
        (t.anyOf.map (·.map (·.holds row))).all (·.any id)) := fun row => by
    simp [holds, List.all_map, List.any_map, Function.comp_def]
  rw [hholds, hholds row', hall, hnone, hany]

namespace Query.Plan

/-- The position is in the projection, in the order or in a condition. -/
inductive Mentions (p : Plan) (k : Nat) : Prop where
  | projection {is : List Nat} (returned : p.projection = some is) (mem : k ∈ is)
  | order {direction : Direction} (mem : (k, direction) ∈ p.order)
  | clause {c : Condition} (mem : c ∈ p.clause.conditions) (column : c.column = k)

theorem mentions_iff {p : Plan} {k : Nat} : p.Mentions k ↔ k ∈ p.projection.getD [] ∨
    k ∈ p.order.map Prod.fst ∨ k ∈ p.clause.conditions.map (·.column) := by
  constructor
  · intro h
    cases h with
    | projection hreturned hk => exact .inl (by rwa [hreturned])
    | order hk => exact .inr (.inl (List.mem_map_of_mem hk))
    | clause hc hcolumn => exact .inr (.inr (List.mem_map.mpr ⟨_, hc, hcolumn⟩))
  · rintro (hk | hk | hk)
    · cases hprojection : p.projection with
      | none => simp [hprojection] at hk
      | some is => exact .projection hprojection (by rwa [hprojection] at hk)
    · obtain ⟨column, hmem, rfl⟩ := List.mem_map.mp hk
      exact .order hmem
    · obtain ⟨c, hc, hcolumn⟩ := List.mem_map.mp hk
      exact .clause hc hcolumn

/-- The rows have the same values in the columns that the plan mentions. -/
def Alike (p : Plan) (row row' : Row) : Prop := ∀ k, p.Mentions k → row[k]? = row'[k]?

variable {p : Plan} {row row' : Row} {rows rows' : List Row}

theorem Alike.holds_eq (h : p.Alike row row') : p.clause.holds row = p.clause.holds row' :=
  WhereClause.holds_congr fun _ hc => h _ (.clause hc rfl)

theorem Alike.project_eq {is : List Nat} (hp : p.projection = some is) (h : p.Alike row row') :
    p.project row = p.project row' := by
  simp only [project, hp]
  refine List.map_congr_left fun i hi => ?_
  rw [List.getD_eq_getElem?_getD, List.getD_eq_getElem?_getD, h i (.projection hp hi)]

theorem compareRows_congr {order : List (Nat × Direction)} {a b a' b' : Row}
    (ha : ∀ column ∈ order, a[column.1]? = a'[column.1]?)
    (hb : ∀ column ∈ order, b[column.1]? = b'[column.1]?) :
    compareRows order a b = compareRows order a' b' := by
  induction order with
  | nil => rfl
  | cons column order ih =>
    obtain ⟨hacolumn, ha⟩ := List.forall_mem_cons.mp ha
    obtain ⟨hbcolumn, hb⟩ := List.forall_mem_cons.mp hb
    have hcolumn : compareIn column a b = compareIn column a' b' := by
      simp only [compareIn, List.getD_eq_getElem?_getD, hacolumn, hbcolumn]
    rw [compareRows, compareRows, hcolumn, ih ha hb]

theorem Alike.compareRows_eq {a b a' b' : Row} (ha : p.Alike a a') (hb : p.Alike b b') :
    compareRows p.order a b = compareRows p.order a' b' :=
  compareRows_congr (fun _ hcolumn => ha _ (.order hcolumn)) fun _ hcolumn => hb _ (.order hcolumn)

/-! ## Answers over alike rows -/

theorem scan_alike {R : Row → Row → Prop} {keep : Row → Bool}
    (hkeep : ∀ row row', R row row' → keep row = keep row') (limit : Option Nat)
    (h : List.Forall₂ R rows rows') :
    List.Forall₂ R (scan keep limit rows) (scan keep limit rows') := by
  induction h generalizing limit with
  | nil => simp [scan]
  | @cons row row' rows rows' hrow _ ih =>
    by_cases hlimit : limit = some 0
    · rw [hlimit, scan, scan]
      exact .nil
    · rw [scan, scan, hkeep row row' hrow]
      · split
        · exact .cons hrow (ih _)
        · exact ih _
      · simpa using hlimit
      · simpa using hlimit

theorem map_project_alike {is : List Nat} (hp : p.projection = some is)
    (h : List.Forall₂ p.Alike rows rows') : rows.map p.project = rows'.map p.project := by
  rw [← List.forall₂_eq_eq_eq, List.forall₂_map_left_iff, List.forall₂_map_right_iff]
  exact h.imp fun _ _ hrow => hrow.project_eq hp

/-- Only a plan with a projection, or one that counts, does not return whole rows. -/
theorem run_alike (hp : p.projection ≠ none ∨ p.reduction = some .count) (s : Schema)
    (h : List.Forall₂ p.Alike rows rows') : p.run s rows = p.run s rows' := by
  have hkeep : ∀ row row', p.Alike row row' → p.clause.holds row = p.clause.holds row' :=
    fun _ _ hrow => hrow.holds_eq
  have hmatching := scan_alike hkeep p.limit h
  unfold run
  generalize scan p.clause.holds p.limit rows = matching at hmatching ⊢
  generalize scan p.clause.holds p.limit rows' = matching' at hmatching ⊢
  by_cases hcount : p.reduction = some .count
  · rw [hcount]
    exact congrArg Query.Answer.count hmatching.length_eq
  · obtain ⟨is, his⟩ := Option.ne_none_iff_exists'.mp (hp.resolve_right hcount)
    have hshown := map_project_alike his hmatching
    cases hreduction : p.reduction with
    | none =>
      have hsorted : List.Forall₂ p.Alike (sortRows p.order matching) (sortRows p.order matching') :=
        Sorting.sort_forall₂ (fun _ _ _ _ ha hb => ha.compareRows_eq hb) hmatching
      exact congrArg (Query.Answer.rows _) (map_project_alike his hsorted)
    | some m =>
      cases m with
      | count => exact absurd hreduction hcount
      | first =>
        simp only [← List.head?_map]
        rw [hshown]
      | last =>
        simp only [← List.getLast?_map]
        rw [hshown]

end Query.Plan

/-! ## Tables that are alike in the columns of a plan -/

namespace Table

variable {config config' : Config} {t t' : Table} {q : Query} {plan : Query.Plan}

theorem Sound.rows_alike (h : t.Sound config) (h' : t'.Sound config')
    (hcount : t.rowCount = t'.rowCount)
    (hvalues : ∀ i < t.rowCount, ∀ k, plan.Mentions k → t.value? i k = t'.value? i k) :
    List.Forall₂ plan.Alike t.rows t'.rows := by
  obtain ⟨hlength, hrows⟩ := h.rows_spec
  obtain ⟨hlength', hrows'⟩ := h'.rows_spec
  refine List.forall₂_iff_get.mpr ⟨by rw [hlength, hlength', hcount], fun i hi hi' k hk => ?_⟩
  have hvalue := hvalues i (hlength ▸ hi) k hk
  rw [value?, value?, ← hrows, ← hrows', List.getElem?_eq_getElem hi,
    List.getElem?_eq_getElem hi'] at hvalue
  exact hvalue

/-- A plan that returns no whole rows answers the same over two tables of one schema with as many rows
each that hold the same values in the columns it mentions. -/
theorem answers_alike (h : t.Reachable config) (h' : t'.Reachable config')
    (hschema : t.schema = t'.schema) (hcount : t.rowCount = t'.rowCount)
    (hplan : Query.Plan.ofQuery t.schema q = .ok plan)
    (hreturns : plan.projection ≠ none ∨ plan.reduction = some .count)
    (hvalues : ∀ i < t.rowCount, ∀ k, plan.Mentions k → t.value? i k = t'.value? i k) :
    plan.run t.schema t.rows = plan.run t'.schema t'.rows ∧ t.get q = t'.get q := by
  have hrun : plan.run t.schema t.rows = plan.run t'.schema t'.rows := by
    rw [← hschema]
    exact Query.Plan.run_alike hreturns t.schema (h.sound.rows_alike h'.sound hcount hvalues)
  refine ⟨hrun, ?_⟩
  have hplan' : Query.Plan.ofQuery t'.schema q = .ok plan := hschema ▸ hplan
  rw [get, get, Query.run, Query.run, hplan, hplan', Outcome.ok_bind, Outcome.ok_bind, hrun]

def cheapestNames : Query := { keys := some ["name"], order := ["price"], clause := ["price > 1"] }

/-- Two tables of fruits that differ in a column that is not asked for. -/
def fruitsTwice : List Command := [
  .createWith "here" [⟨"name", .text, 8, false, false, false⟩,
    ⟨"price", .integer, 4, false, false, false⟩, ⟨"note", .text, 8, false, false, false⟩],
  .createWith "there" [⟨"name", .text, 8, false, false, false⟩,
    ⟨"price", .integer, 4, false, false, false⟩, ⟨"note", .text, 8, false, false, false⟩],
  .insert "here" (.positional [.str "plum", .str "3", .str "blue"]),
  .insert "here" (.positional [.str "fig", .str "1", .str "sweet"]),
  .insert "here" (.positional [.str "pear", .str "2"]),
  .insert "there" (.positional [.str "plum", .str "3"]),
  .insert "there" (.positional [.str "fig", .str "1", .str "dry"]),
  .insert "there" (.positional [.str "pear", .str "2", .str "green"])]

/-- What can be evaluated of two tables: they differ, but not in the first two columns, and the plan
mentions no others. -/
def alikeButNotes (t t' : Table) : Bool :=
  decide (t.schema = t'.schema) && decide (t.rowCount = t'.rowCount) && decide (t.rows ≠ t'.rows) &&
  decide (∀ i : Nat, i < t.rowCount → ∀ k : Nat, k < 2 → t.value? i k = t'.value? i k) &&
  decide (t.get cheapestNames = .ok (.rows ["name"] [[.text "pear"], [.text "plum"]])) &&
  (Query.Plan.ofQuery t.schema cheapestNames).toOption.any fun plan =>
    decide (plan.projection = some [0]) && decide (plan.order = [(1, .ascending)]) &&
      decide (plan.clause.conditions.map (·.column) = [1])

theorem answers_alike_notes : ∃ db t t', Database.new .default = .ok db ∧
    (db.run fruitsTwice).table? "here" = some t ∧ (db.run fruitsTwice).table? "there" = some t' ∧
    t.rows ≠ t'.rows ∧
    t.get cheapestNames = .ok (.rows ["name"] [[.text "pear"], [.text "plum"]]) ∧
    ∃ plan, Query.Plan.ofQuery t.schema cheapestNames = .ok plan ∧
      plan.run t.schema t.rows = plan.run t'.schema t'.rows ∧
      t.get cheapestNames = t'.get cheapestNames := by
  have htest : (Database.new .default).toOption.any (fun db =>
      ((db.run fruitsTwice).table? "here").any fun t =>
        ((db.run fruitsTwice).table? "there").any (alikeButNotes t)) = true := by
    decide +kernel
  cases hdb : Database.new .default with
  | error e => simp [hdb, Except.toOption] at htest
  | ok db =>
    cases ht : (db.run fruitsTwice).table? "here" with
    | none => simp [hdb, ht, Except.toOption] at htest
    | some t =>
      cases ht' : (db.run fruitsTwice).table? "there" with
      | none => simp [hdb, ht, ht', Except.toOption] at htest
      | some t' =>
        cases hplan : Query.Plan.ofQuery t.schema cheapestNames with
        | error e => simp [hdb, ht, ht', alikeButNotes, hplan, Except.toOption] at htest
        | ok plan =>
          simp only [hdb, ht, ht', alikeButNotes, hplan, Except.toOption, Option.any_some,
            Bool.and_eq_true, decide_eq_true_eq] at htest
          obtain ⟨⟨⟨⟨⟨hschema, hcount⟩, hdiffer⟩, hvalues⟩, hget⟩, ⟨hprojection, horder⟩, hclause⟩ :=
            htest
          have hgoverned := (Database.governed_new hdb).run fruitsTwice
          have hmentions : ∀ k, plan.Mentions k → k < 2 := by
            intro k hk
            rw [Query.Plan.mentions_iff, hprojection, horder, hclause] at hk
            have hk : k = 0 ∨ k = 1 := by simpa using hk
            omega
          refine ⟨db, t, t', rfl, ht, ht', hdiffer, hget, plan, hplan, ?_⟩
          exact answers_alike (hgoverned.tables _ t ht) (hgoverned.tables _ t' ht') hschema hcount
            hplan (.inl (by simp [hprojection])) fun i hi k hk => hvalues i hi k (hmentions k hk)

end Table

end TypedTables
