import TypedTables.Database.Command
import TypedTables.Proofs.Table.Soundness

/-!
# Runs of commands

Every command either leaves the database as it is or changes one table: a new one of a checked
schema comes, one goes, or one gets a row offered (`Database.Effect`). So whatever commands are run
on a database without tables, each of its tables is one that is reachable under its configuration.
-/

namespace TypedTables.Database

variable {config : Config} {db db' : Database} {name : String} {t : Table}

/-! ## New databases -/

theorem new_eq_ok (h : new config = .ok db) : db.config = config ∧ db.tables = ∅ := by
  obtain ⟨_, -, h⟩ := Outcome.bind_eq_ok.mp h
  obtain ⟨formats, -, h⟩ := Outcome.bind_eq_ok.mp h
  cases h
  exact ⟨rfl, rfl⟩

/-! ## Tables under names -/

theorem table?_put (db : Database) (name other : String) (t : Table) :
    (db.put name t).table? other = if name = other then some t else db.table? other := by
  simp only [table?, put, Std.ExtTreeMap.getElem?_insert, Std.compare_eq_iff_eq]

theorem table?_erase (db : Database) (name other : String) :
    ({ db with tables := db.tables.erase name } : Database).table? other =
      if name = other then none else db.table? other := by
  simp only [table?, Std.ExtTreeMap.getElem?_erase, Std.compare_eq_iff_eq]

theorem table_eq_ok : db.table name = .ok t ↔ db.table? name = some t := by
  unfold table
  cases db.table? name <;> simp

/-! ## One command -/

/-- What a command can make of a database. -/
inductive Effect (db : Database) : Database → Prop where
  | keep : Effect db db
  | create {name : String} {s : Schema} (free : db.table? name = none)
    (checked : s.Checked db.config) : Effect db (db.put name (.new name s db.formats))
  | drop (name : String) : Effect db { db with tables := db.tables.erase name }
  | insert {name : String} {t : Table} (found : db.table? name = some t) (input : RowInput) :
    Effect db (db.put name (t.insert input).1)

theorem createTable_eq_ok {schema : Except SchemaError Schema}
    (h : db.createTable name schema = .ok db') :
    ∃ s, schema = .ok s ∧ db.table? name = none ∧ db' = db.put name (.new name s db.formats) := by
  unfold createTable at h
  split at h
  · cases h
  · next hfree =>
    obtain ⟨s, hs, h⟩ := Outcome.bind_eq_ok.mp h
    cases h
    exact ⟨s, Outcome.mapError_eq_ok.mp hs, by simpa using hfree, rfl⟩

theorem drop_eq_ok (h : db.drop name = .ok db') :
    db' = { db with tables := db.tables.erase name } := by
  obtain ⟨_, -, h⟩ := Outcome.bind_eq_ok.mp h
  cases h
  rfl

theorem insertRow_effect (db : Database) (name : String) (input : RowInput) :
    db.Effect (db.insertRow name input).1 := by
  unfold insertRow
  split
  · exact .keep
  · next t ht => exact .insert (table_eq_ok.mp ht) input

theorem orKeep_effect {result : Except DatabaseError Database}
    (h : ∀ db', result = .ok db' → db.Effect db') : db.Effect (db.orKeep result).1 := by
  cases result with
  | ok db' => exact h db' rfl
  | error e => exact .keep

theorem execute_effect (db : Database) (command : Command) :
    db.Effect (db.execute command).1 := by
  cases command with
  | create name columns =>
    refine orKeep_effect fun db' h => ?_
    obtain ⟨s, hs, hfree, rfl⟩ := createTable_eq_ok h
    exact .create hfree (.inl ⟨columns, hs⟩)
  | createWith name defs =>
    refine orKeep_effect fun db' h => ?_
    obtain ⟨s, hs, hfree, rfl⟩ := createTable_eq_ok h
    exact .create hfree (.inr ⟨defs, hs⟩)
  | drop name =>
    refine orKeep_effect fun db' h => ?_
    rw [drop_eq_ok h]
    exact .drop name
  | insert name input => exact insertRow_effect db name input
  | get name q => exact .keep

/-! ## Runs -/

/-- All tables have come about under this configuration. -/
structure Governed (config : Config) (db : Database) : Prop where
  ruled : db.config = config
  tables : ∀ name t, db.table? name = some t → t.Reachable config

theorem table?_of_empty (hempty : db.tables = ∅) (name : String) : db.table? name = none := by
  rw [table?, hempty]
  exact Std.ExtTreeMap.getElem?_empty

theorem governed_of_empty (hempty : db.tables = ∅) : db.Governed db.config := by
  refine ⟨rfl, fun name t ht => ?_⟩
  rw [table?_of_empty hempty] at ht
  cases ht

theorem governed_new (h : new config = .ok db) : db.Governed config := by
  obtain ⟨rfl, hempty⟩ := new_eq_ok h
  exact governed_of_empty hempty

theorem Governed.put (h : db.Governed config) (ht : t.Reachable config) :
    (db.put name t).Governed config := by
  refine ⟨h.ruled, fun other t' ht' => ?_⟩
  rw [table?_put] at ht'
  split at ht'
  · cases ht'
    exact ht
  · exact h.tables other t' ht'

theorem Governed.effect (h : db.Governed config) (he : db.Effect db') : db'.Governed config := by
  cases he with
  | keep => exact h
  | create _ checked =>
    rw [h.ruled] at checked
    exact h.put (.new checked _ _)
  | drop name =>
    refine ⟨h.ruled, fun other t ht => ?_⟩
    rw [table?_erase] at ht
    split at ht
    · cases ht
    · exact h.tables other t ht
  | insert found input => exact h.put ((h.tables _ _ found).insert input)

theorem Governed.run (h : db.Governed config) (commands : List Command) :
    (db.run commands).Governed config := by
  induction commands generalizing db with
  | nil => exact h
  | cons command commands ih => exact ih (h.effect (db.execute_effect command))

/-- A table of a run has a property if the run can be evaluated and a test tells so. -/
theorem exists_table_of_run {commands : List Command} {P : Table → Prop} (test : Table → Bool)
    (h : (new config).toOption.any (fun db => ((db.run commands).table? name).any test) = true)
    (hP : ∀ db t, new config = .ok db → (db.run commands).table? name = some t → test t = true →
      P t) :
    ∃ db t, new config = .ok db ∧ (db.run commands).table? name = some t ∧ P t := by
  cases hdb : new config with
  | error e => simp [hdb, Except.toOption] at h
  | ok db =>
    cases ht : (db.run commands).table? name with
    | none => simp [hdb, ht, Except.toOption] at h
    | some t =>
      simp only [hdb, ht, Except.toOption, Option.any_some] at h
      exact ⟨db, t, rfl, ht, hP db t hdb ht h⟩

/-- Whatever commands are run on a database without tables, such as a new one, all its tables are
sound. -/
theorem sound_of_run (hempty : db.tables = ∅) (commands : List Command)
    (ht : (db.run commands).table? name = some t) : t.Sound db.config :=
  (((governed_of_empty hempty).run commands).tables name t ht).sound

/-- A table of times after a row with a time, a row with none and a row without anything. -/
theorem sound_of_run_times : ∃ db t, new .default = .ok db ∧
    (db.run [
      .createWith "times" [⟨"id", .integer, 6, true, false, true⟩,
        ⟨"at", .time, 8, false, false, false⟩],
      .insert "times" (.positional [.str "7", .str "8:30"]),
      .insert "times" (.positional [.str "8", .str "noon"]),
      .insert "times" (.named [])]).table? "times" = some t ∧
    t.rowCount = 2 ∧ t.Sound .default :=
  exists_table_of_run (fun t => t.rowCount == 2) (by decide +kernel) fun db _ hdb ht hcount => by
    obtain ⟨hconfig, hempty⟩ := new_eq_ok hdb
    have hsound := sound_of_run hempty _ ht
    rw [hconfig] at hsound
    exact ⟨by simpa using hcount, hsound⟩

/-- Whatever commands are run on a database without tables, each of its tables takes a row in as a
whole, behind the rows that it has, or stays as it is. -/
theorem takes_of_run (hempty : db.tables = ∅) (commands : List Command)
    (ht : (db.run commands).table? name = some t) (input : RowInput) : t.Takes input :=
  (((governed_of_empty hempty).run commands).tables name t ht).sound.takes input

/-- A row that fits only the first of two columns, and one that fits both. -/
theorem takes_of_run_points : ∃ db t, new .default = .ok db ∧
    (db.run [.createWith "points" [⟨"x", .integer, 6, false, false, false⟩,
      ⟨"y", .number, 6, false, true, false⟩]]).table? "points" = some t ∧
    ((t.insert (.positional [.str "1", .str "far"])).1.rowCount = 0 ∧
      (t.insert (.positional [.str "1", .str "2.5"])).1.rowCount = 1) ∧
    t.Takes (.positional [.str "1", .str "far"]) ∧ t.Takes (.positional [.str "1", .str "2.5"]) :=
  exists_table_of_run
    (fun t => (t.insert (.positional [.str "1", .str "far"])).1.rowCount == 0 &&
      (t.insert (.positional [.str "1", .str "2.5"])).1.rowCount == 1)
    (by decide +kernel) fun _ _ hdb ht hcounts => by
      obtain ⟨-, hempty⟩ := new_eq_ok hdb
      exact ⟨by simpa using hcounts, takes_of_run hempty _ ht _, takes_of_run hempty _ ht _⟩

end TypedTables.Database
