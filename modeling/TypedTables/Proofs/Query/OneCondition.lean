import TypedTables.Proofs.Condition.Trimmed
import TypedTables.Proofs.Query.Answers

/-!
# Queries with one condition

A condition can be held against a row (`Condition.readAndHolds`) or be the only item of the clause of a
query. Both read it alike (`Condition.AgreesWithClause`), so the query finds the stored rows of which the
condition is true, in the order in which they are stored, and is refused if the condition is.
-/

namespace TypedTables

def Condition.isTrueOf (s : Schema) (text : String) (row : Row) : Bool :=
  decide (readAndHolds s row text = .ok true)

namespace Table

variable {config : Config} {t : Table} {text : String}

/-- What a table finds by one condition, and in which columns it shows it. -/
structure FindsBy (t : Table) (text : String) : Prop where
  stored : t.rows.length = t.rowCount ∧ ∀ i, t.rows[i]? = t.row? i
  found : ∀ row b, Condition.readAndHolds t.schema row text = .ok b →
    t.get { clause := [text] } =
      .ok (.rows t.schema.names (t.rows.filter (Condition.isTrueOf t.schema text)))
  /-- The query may ask for some of the columns. -/
  shown : ∀ (q : Query) (answer : Query.Answer), q.clause = [text] → q.order = [] → q.limit = none →
    q.method = none → t.get q = .ok answer → ∃ rows, answer = .rows (q.asked t.schema) rows ∧
      List.Forall₂ (t.schema.Shows · (q.asked t.schema) ·)
        (t.rows.filter (Condition.isTrueOf t.schema text)) rows
  refused : ∀ row e, Condition.readAndHolds t.schema row text = .error e →
    ∃ e', t.get { clause := [text] } = .error (.condition e') ∧ RefusedAlike text e e'

theorem filter_holds {clause : WhereClause} (h : WhereClause.read t.schema [text] = .ok clause)
    (rows : List Row) :
    rows.filter clause.holds = rows.filter (Condition.isTrueOf t.schema text) := by
  refine List.filter_congr fun row _ => ?_
  rw [Condition.isTrueOf, (Condition.agreesWithClause t.schema text).same clause h row]
  cases clause.holds row <;> rfl

theorem Sound.findsBy (h : t.Sound config) (text : String) : t.FindsBy text where
  stored := h.rows_spec
  found row b hb := by
    have hagrees := Condition.agreesWithClause t.schema text
    obtain ⟨clause, hclause⟩ := (hagrees.accepted row).mp ⟨b, hb⟩
    rw [get_clause, hclause, ← filter_holds hclause]
    rfl
  shown q answer hq horder hlimit hmethod hget := by
    obtain ⟨plan, hplan, hrun⟩ := Outcome.bind_eq_ok.mp hget
    have hplans := Query.Plan.ofQuery_eq_ok hplan
    have hclause := hplans.clause
    rw [hq] at hclause
    cases hrun
    refine ⟨_, hplans.run_clause horder hlimit hmethod t.rows, ?_⟩
    rw [← filter_holds hclause]
    refine List.forall₂_map_right_iff.mpr (List.forall₂_same.mpr fun row hrow => ?_)
    exact hplans.shows h.schema.distinct (h.admits_of_mem_rows (List.mem_of_mem_filter hrow))
  refused row e he := by
    have hagrees := Condition.agreesWithClause t.schema text
    cases hclause : WhereClause.read t.schema [text] with
    | ok clause =>
      obtain ⟨b, hb⟩ := (hagrees.accepted row).mpr ⟨clause, hclause⟩
      rw [he] at hb
      cases hb
    | error e' =>
      refine ⟨e', ?_, hagrees.refused row e e' he hclause⟩
      rw [get_clause, hclause]
      rfl

end Table

/-- A text says the same as a condition and as the only item of a clause, of the rows of any schema and
of what is stored in any table. -/
theorem Condition.agrees_with_queries (text : String) :
    (∀ s, AgreesWithClause s text) ∧
      ∀ (config : Config) (t : Table), t.Reachable config → t.FindsBy text :=
  ⟨fun s => agreesWithClause s text, fun _ _ h => h.sound.findsBy text⟩

/-- A condition with blanks around it finds two of three rows; a join word and half a condition are
refused in two ways each. -/
theorem Condition.agrees_with_queries_prices : ∃ db t, Database.new .default = .ok db ∧
    (db.run [.createWith "fruits" [⟨"name", .text, 8, true, true, false⟩,
        ⟨"price", .integer, 4, false, false, false⟩],
      .insert "fruits" (.positional [.str "plum", .str "2"]),
      .insert "fruits" (.positional [.str "fig"]),
      .insert "fruits" (.positional [.str "pear", .str "3"])]).table? "fruits" = some t ∧
    (t.get { clause := ["\tprice>= 2 "] } =
        .ok (.rows ["name", "price"] [[.text "plum", .integer 2], [.text "pear", .integer 3]]) ∧
      readAndHolds t.schema [.text "fig", .null] "\tprice>= 2 " = .ok false ∧
      readAndHolds t.schema [] " or" = .error (.malformed " or") ∧
      t.get { clause := [" or"] } = .error (.condition (.danglingOperator "OR")) ∧
      readAndHolds t.schema [] "price " = .error (.malformed "price ") ∧
      t.get { clause := ["price "] } = .error (.condition (.malformed "price"))) ∧
    t.Reachable .default ∧
    (AgreesWithClause t.schema "\tprice>= 2 " ∧ t.FindsBy "\tprice>= 2 ") ∧
    (AgreesWithClause t.schema " or" ∧ t.FindsBy " or") ∧
    (AgreesWithClause t.schema "price " ∧ t.FindsBy "price ") :=
  Database.exists_table_of_run
    (fun t => decide (t.get { clause := ["\tprice>= 2 "] } =
        .ok (.rows ["name", "price"] [[.text "plum", .integer 2], [.text "pear", .integer 3]]) ∧
      readAndHolds t.schema [.text "fig", .null] "\tprice>= 2 " = .ok false ∧
      readAndHolds t.schema [] " or" = .error (.malformed " or") ∧
      t.get { clause := [" or"] } = .error (.condition (.danglingOperator "OR")) ∧
      readAndHolds t.schema [] "price " = .error (.malformed "price ") ∧
      t.get { clause := ["price "] } = .error (.condition (.malformed "price"))))
    (by decide +kernel) fun _ t hdb ht htest => by
      have hreachable := ((Database.governed_new hdb).run _).tables _ _ ht
      have hboth : ∀ text, AgreesWithClause t.schema text ∧ t.FindsBy text := fun text =>
        ⟨(agrees_with_queries text).1 t.schema, (agrees_with_queries text).2 .default t hreachable⟩
      exact ⟨of_decide_eq_true htest, hreachable, hboth _, hboth _, hboth _⟩

end TypedTables
