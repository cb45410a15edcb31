import Mathlib.Data.List.Induction
import TypedTables.Proofs.Database.Runs

/-!
# Tables apart from each other

A command only looks at what is under its own name, and only changes that (`Command.act`). So tables
under other names stay as they are, commands on different names can be done in either order, and what
tables there are can be told from the creations and drops that were done (`Database.Stands`).
-/

namespace TypedTables

open Database (Reply)

variable {config : Config} {formats : Formats Pattern} {db : Database} {name other : String}

/-! ## What is under a name -/

namespace Database

def assign (db : Database) (name : String) : Option Table → Database
  | some t => db.put name t
  | none => { db with tables := db.tables.erase name }

theorem table?_assign (db : Database) (name other : String) (found : Option Table) :
    (db.assign name found).table? other = if name = other then found else db.table? other := by
  cases found with
  | some t => exact table?_put db name other t
  | none => exact table?_erase db name other

theorem config_assign (db : Database) (name : String) (found : Option Table) :
    (db.assign name found).config = db.config := by
  cases found <;> rfl

theorem formats_assign (db : Database) (name : String) (found : Option Table) :
    (db.assign name found).formats = db.formats := by
  cases found <;> rfl

theorem ext_table? {db db' : Database} (hconfig : db.config = db'.config)
    (hformats : db.formats = db'.formats) (h : ∀ name, db.table? name = db'.table? name) :
    db = db' := by
  obtain ⟨config, formats, tables⟩ := db
  obtain ⟨config', formats', tables'⟩ := db'
  obtain rfl : config = config' := hconfig
  obtain rfl : formats = formats' := hformats
  obtain rfl : tables = tables' := Std.ExtTreeMap.ext_getElem? h
  rfl

theorem assign_table? (db : Database) (name : String) : db.assign name (db.table? name) = db := by
  refine ext_table? (config_assign ..) (formats_assign ..) fun other => ?_
  rw [table?_assign]
  split
  · next h => rw [h]
  · rfl

theorem assign_comm (db : Database) (h : name ≠ other) (found found' : Option Table) :
    (db.assign name found).assign other found' = (db.assign other found').assign name found := by
  refine ext_table? (by simp only [config_assign]) (by simp only [formats_assign]) fun key => ?_
  simp only [table?_assign]
  by_cases hname : name = key
  · subst hname
    rw [if_neg h.symm, if_pos rfl, if_pos rfl]
  · rw [if_neg hname, if_neg hname]

end Database

/-! ## What a command does -/

namespace Command

def make (formats : Formats Pattern) (name : String) (schema : Except SchemaError Schema) :
    Option Table → Option Table × Reply
  | some t => (some t, .error (.tableExists name))
  | none =>
    match schema with
    | .ok s => (some (.new name s formats), .ok none)
    | .error e => (none, .error (.schema e))

def within (name : String) (f : Table → Option Table × Reply) : Option Table → Option Table × Reply
  | some t => f t
  | none => (none, .error (.tableNotFound name))

/-- What a command makes of what is under its name, and what it answers. -/
def act (config : Config) (formats : Formats Pattern) :
    Command → Option Table → Option Table × Reply
  | create name columns => make formats name (Schema.ofJson config columns)
  | createWith name defs => make formats name (Schema.ofDefs config defs)
  | drop name => within name fun _ => (none, .ok none)
  | insert name input => within name fun t =>
    (some (t.insert input).1, ((t.insert input).2.mapError .row).map fun _ => none)
  | get name q => within name fun t => (some t, ((t.get q).mapError .query).map some)

end Command

namespace Database

theorem assign_found {found : Option Table} (h : db.table? name = found) :
    db.assign name found = db := by
  rw [← h, assign_table?]

theorem orKeep_createTable (db : Database) (name : String) (schema : Except SchemaError Schema) :
    db.orKeep (db.createTable name schema) =
      (db.assign name (Command.make db.formats name schema (db.table? name)).1,
        (Command.make db.formats name schema (db.table? name)).2) := by
  cases hfound : db.table? name with
  | some t =>
    have hcreate : db.createTable name schema = .error (.tableExists name) := by
      rw [createTable, hfound]
      rfl
    rw [hcreate, Command.make, assign_found hfound]
    rfl
  | none =>
    cases schema with
    | ok s =>
      have hcreate : db.createTable name (.ok s) = .ok (db.put name (.new name s db.formats)) := by
        rw [createTable, hfound]
        rfl
      rw [hcreate]
      rfl
    | error e =>
      have hcreate : db.createTable name (.error e) = .error (.schema e) := by
        rw [createTable, hfound]
        rfl
      rw [hcreate, Command.make, assign_found hfound]
      rfl

theorem orKeep_drop (db : Database) (name : String) :
    db.orKeep (db.drop name) =
      (db.assign name (Command.within name (fun _ => (none, .ok none)) (db.table? name)).1,
        (Command.within name (fun _ => (none, .ok none)) (db.table? name)).2) := by
  cases hfound : db.table? name with
  | some t =>
    have hdrop : db.drop name = .ok { db with tables := db.tables.erase name } := by
      rw [drop, table, hfound]
      rfl
    rw [hdrop]
    rfl
  | none =>
    have hdrop : db.drop name = .error (.tableNotFound name) := by
      rw [drop, table, hfound]
      rfl
    rw [hdrop, Command.within, assign_found hfound]
    rfl

/-- A command changes nothing but what is under its name, and looks at nothing else. -/
theorem execute_eq (db : Database) (c : Command) :
    db.execute c = (db.assign c.name (c.act db.config db.formats (db.table? c.name)).1,
      (c.act db.config db.formats (db.table? c.name)).2) := by
  cases c with
  | create name columns => exact db.orKeep_createTable name _
  | createWith name defs => exact db.orKeep_createTable name _
  | drop name => exact db.orKeep_drop name
  | insert name input =>
    simp only [execute, insertRow, table, Command.name, Command.act]
    cases hfound : db.table? name with
    | some t => rfl
    | none => rw [Command.within, assign_found hfound]; rfl
  | get name q =>
    simp only [execute, get, table, Command.name, Command.act]
    cases hfound : db.table? name with
    | some t => rw [Command.within, assign_found hfound]; rfl
    | none => rw [Command.within, assign_found hfound]; rfl

end Database

namespace Command

variable {found : Option Table} {c : Command} {e : DatabaseError}

theorem make_refused {schema : Except SchemaError Schema}
    (h : (make formats name schema found).2 = .error e) :
    (make formats name schema found).1 = found := by
  cases found with
  | some t => rfl
  | none =>
    cases schema with
    | ok s => cases h
    | error e => rfl

/-- A command that is refused leaves what is under its name; a table must be sound to refuse a row as
a whole. -/
theorem act_refused (hfound : ∀ t, found = some t → t.Sound config)
    (h : (c.act config formats found).2 = .error e) : (c.act config formats found).1 = found := by
  cases c with
  | create name columns => exact make_refused h
  | createWith name defs => exact make_refused h
  | drop name =>
    cases found with
    | some t => cases h
    | none => rfl
  | insert name input =>
    cases found with
    | some t =>
      have htakes := (hfound t rfl).takes input
      simp only [act, within] at h ⊢
      cases hinsert : (t.insert input).2 with
      | ok _ =>
        rw [hinsert] at h
        cases h
      | error e' => rw [htakes.refused e' hinsert]
    | none => rfl
  | get name q =>
    cases found with
    | some t => rfl
    | none => rfl

def schema? (config : Config) : Command → Option (Except SchemaError Schema)
  | create _ columns => some (Schema.ofJson config columns)
  | createWith _ defs => some (Schema.ofDefs config defs)
  | drop _ | insert _ _ | get _ _ => none

theorem act_of_schema? {schema : Except SchemaError Schema} (h : c.schema? config = some schema) :
    c.act config formats = make formats c.name schema := by
  cases c <;> cases h <;> rfl

theorem act_absent (h : c.schema? config = none) :
    c.act config formats none = (none, .error (.tableNotFound c.name)) := by
  cases c with
  | create | createWith => cases h
  | drop | insert | get => rfl

end Command

/-! ## Tables apart -/

namespace Database

/-- What a command answers and leaves, the contents of its own table aside. -/
structure Isolates (db : Database) (c : Command) : Prop where
  others : ∀ name, name ≠ c.name → (db.execute c).1.table? name = db.table? name
  config : (db.execute c).1.config = db.config
  formats : (db.execute c).1.formats = db.formats
  refused : ∀ e, (db.execute c).2 = .error e → (db.execute c).1 = db
  /-- A name that is taken is refused, whatever the columns are. -/
  taken : ∀ schema, c.schema? db.config = some schema → (db.table? c.name).isSome = true →
    (db.execute c).2 = .error (.tableExists c.name)
  created : ∀ s, c.schema? db.config = some (.ok s) → db.table? c.name = none →
    (db.execute c).2 = .ok none ∧
      ∃ t, (db.execute c).1.table? c.name = some t ∧ t.schema = s ∧ t.rowCount = 0 ∧ t.rows = []
  rejected : ∀ e, c.schema? db.config = some (.error e) → db.table? c.name = none →
    (db.execute c).2 = .error (.schema e)
  dropped : ∀ name, c = .drop name → (db.table? name).isSome = true →
    (db.execute c).2 = .ok none ∧ (db.execute c).1.table? name = none
  absent : c.schema? db.config = none → db.table? c.name = none →
    (db.execute c).2 = .error (.tableNotFound c.name)

theorem Governed.isolates (h : db.Governed config) (c : Command) : db.Isolates c where
  others name hname := by
    rw [execute_eq]
    exact (table?_assign ..).trans (if_neg hname.symm)
  config := by rw [execute_eq]; exact config_assign ..
  formats := by rw [execute_eq]; exact formats_assign ..
  refused e he := by
    have hsound : ∀ t, db.table? c.name = some t → t.Sound db.config := fun t ht => by
      rw [h.ruled]
      exact (h.tables _ t ht).sound
    rw [execute_eq] at he ⊢
    exact assign_found (Command.act_refused hsound he).symm
  taken schema hschema htaken := by
    obtain ⟨t, ht⟩ := Option.isSome_iff_exists.mp htaken
    rw [execute_eq, Command.act_of_schema? hschema, ht]
    rfl
  created s hschema hfree := by
    rw [execute_eq, Command.act_of_schema? hschema, hfree]
    exact ⟨rfl, _, (table?_assign ..).trans (if_pos rfl), rfl, rfl, rfl⟩
  rejected e hschema hfree := by
    rw [execute_eq, Command.act_of_schema? hschema, hfree]
    rfl
  dropped name hc hfound := by
    obtain ⟨t, ht⟩ := Option.isSome_iff_exists.mp hfound
    subst hc
    rw [execute_eq, Command.name, ht]
    exact ⟨rfl, (table?_assign ..).trans (if_pos rfl)⟩
  absent hschema hfree := by
    rw [execute_eq, hfree, Command.act_absent hschema]

/-- Two commands answer the same and leave the same, whichever of them comes first. -/
structure Commutes (db : Database) (c d : Command) : Prop where
  first : ((db.execute d).1.execute c).2 = (db.execute c).2
  second : ((db.execute c).1.execute d).2 = (db.execute d).2
  result : ((db.execute c).1.execute d).1 = ((db.execute d).1.execute c).1

theorem commutes_of_name_ne (db : Database) {c d : Command} (h : c.name ≠ d.name) :
    db.Commutes c d := by
  -- Each command finds under its name what is there before the other.
  have hsame : ∀ {c d : Command}, c.name ≠ d.name → (db.execute c).1.execute d =
      (((db.execute c).1).assign d.name (d.act db.config db.formats (db.table? d.name)).1,
        (d.act db.config db.formats (db.table? d.name)).2) := fun {c d} hne => by
    rw [execute_eq (db.execute c).1 d, execute_eq db c]
    simp only [config_assign, formats_assign, table?_assign, if_neg hne]
  refine ⟨?_, ?_, ?_⟩
  · rw [hsame h.symm, execute_eq db c]
  · rw [hsame h, execute_eq db d]
  · rw [hsame h, hsame h.symm, execute_eq db c, execute_eq db d]
    exact assign_comm db h _ _

/-! ## Which tables there are -/

def history (db : Database) : List Command → List (Command × Reply)
  | [] => []
  | c :: cs => (c, (db.execute c).2) :: history (db.execute c).1 cs

inductive Makes (name : String) : Command × Reply → Prop where
  | create (columns : Json) (answer : Option Query.Answer) :
    Makes name (.create name columns, .ok answer)
  | createWith (defs : List ColumnDecl) (answer : Option Query.Answer) :
    Makes name (.createWith name defs, .ok answer)

inductive Drops (name : String) : Command × Reply → Prop where
  | drop (answer : Option Query.Answer) : Drops name (.drop name, .ok answer)

/-- A table has been made under the name and not been dropped since. -/
def Stands (name : String) (done : List (Command × Reply)) : Prop :=
  ∃ before made since, done = before ++ made :: since ∧ Makes name made ∧ ∀ x ∈ since, ¬Drops name x

theorem stands_append_singleton {done : List (Command × Reply)} {x : Command × Reply} :
    Stands name (done ++ [x]) ↔ Makes name x ∨ (Stands name done ∧ ¬Drops name x) := by
  constructor
  · rintro ⟨before, made, since, heq, hmade, hsince⟩
    cases since using List.reverseRecOn with
    | nil =>
      obtain ⟨-, hx⟩ := List.append_inj' heq rfl
      cases hx
      exact .inl hmade
    | append_singleton since last =>
      rw [← List.cons_append, ← List.append_assoc] at heq
      obtain ⟨hdone, hx⟩ := List.append_inj' heq rfl
      cases hx
      exact .inr ⟨⟨before, made, since, hdone, hmade, fun y hy =>
        hsince y (List.mem_append_left _ hy)⟩, hsince x (by simp)⟩
  · rintro (hx | ⟨⟨before, made, since, rfl, hmade, hsince⟩, hx⟩)
    · exact ⟨done, x, [], rfl, hx, by simp⟩
    · refine ⟨before, made, since ++ [x], by simp, hmade, fun y hy => ?_⟩
      rcases List.mem_append.mp hy with hy | hy
      · exact hsince y hy
      · obtain rfl := List.mem_singleton.mp hy
        exact hx

theorem history_append_singleton (db : Database) (commands : List Command) (c : Command) :
    db.history (commands ++ [c]) =
      db.history commands ++ [(c, ((db.run commands).execute c).2)] := by
  induction commands generalizing db with
  | nil => rfl
  | cons d commands ih =>
    rw [List.cons_append, history, history, ih]
    rfl

theorem run_append_singleton (db : Database) (commands : List Command) (c : Command) :
    db.run (commands ++ [c]) = ((db.run commands).execute c).1 := by
  rw [run, List.foldl_append]
  rfl

theorem Makes.name_eq {c : Command} {r : Reply} (h : Makes name (c, r)) : c.name = name := by
  cases h <;> rfl

theorem Drops.name_eq {c : Command} {r : Reply} (h : Drops name (c, r)) : c.name = name := by
  cases h
  rfl

theorem isSome_make (formats : Formats Pattern) (name : String) (schema : Except SchemaError Schema)
    (found : Option Table) : (Command.make formats name schema found).1.isSome = true ↔
      (∃ answer, (Command.make formats name schema found).2 = .ok answer) ∨ found.isSome = true := by
  cases found with
  | some t => simp [Command.make]
  | none => cases schema <;> simp [Command.make]

/-- A command that is to make a table has made it if it is not refused. -/
theorem makes_iff {c : Command} {schema : Except SchemaError Schema}
    (h : c.schema? config = some schema) (r : Reply) :
    Makes c.name (c, r) ↔ ∃ answer, r = .ok answer := by
  constructor
  · intro hmakes
    generalize c.name = name at hmakes
    cases hmakes <;> exact ⟨_, rfl⟩
  · rintro ⟨answer, rfl⟩
    cases c with
    | create name columns => exact .create columns answer
    | createWith name defs => exact .createWith defs answer
    | drop | insert | get => cases h

theorem not_drops {c : Command} (h : ∀ key, c ≠ .drop key) (r : Reply) : ¬Drops name (c, r) := by
  intro hdrops
  cases hdrops
  exact h _ rfl

theorem not_makes {c : Command} (h : c.schema? config = none) (r : Reply) :
    ¬Makes name (c, r) := by
  intro hmakes
  cases hmakes <;> cases h

/-- There is a table under its name after a command if it has made it, or if it was there and has not
been dropped. -/
theorem isSome_act (c : Command) (found : Option Table) :
    (c.act config formats found).1.isSome = true ↔
      Makes c.name (c, (c.act config formats found).2) ∨
        (found.isSome = true ∧ ¬Drops c.name (c, (c.act config formats found).2)) := by
  cases hschema : c.schema? config with
  | some schema =>
    have hdrop : ∀ key, c ≠ .drop key := by
      rintro key rfl
      cases hschema
    rw [makes_iff hschema, and_iff_left (not_drops hdrop _), Command.act_of_schema? hschema,
      isSome_make]
  | none =>
    rw [or_iff_right (not_makes hschema _)]
    cases found with
    | none => simp [Command.act_absent hschema]
    | some t =>
      cases c with
      | create | createWith => cases hschema
      | drop name => simp [Command.act, Command.name, Command.within, Drops.drop]
      | insert name input => simp [Command.act, Command.name, Command.within, not_drops]
      | get name q => simp [Command.act, Command.name, Command.within, not_drops]

theorem isSome_table?_execute (db : Database) (c : Command) (name : String) :
    ((db.execute c).1.table? name).isSome = true ↔
      Makes name (c, (db.execute c).2) ∨
        ((db.table? name).isSome = true ∧ ¬Drops name (c, (db.execute c).2)) := by
  by_cases hname : c.name = name
  · subst hname
    rw [execute_eq, table?_assign, if_pos rfl]
    exact isSome_act c _
  · have hmakes : ¬Makes name (c, (db.execute c).2) := fun h => hname h.name_eq
    have hdrops : ¬Drops name (c, (db.execute c).2) := fun h => hname h.name_eq
    rw [or_iff_right hmakes, and_iff_left hdrops, execute_eq, table?_assign, if_neg hname]

/-- The tables after a run are those that it has made and not dropped since. -/
theorem isSome_table?_run (hempty : db.tables = ∅) (commands : List Command) (name : String) :
    ((db.run commands).table? name).isSome = true ↔ Stands name (db.history commands) := by
  induction commands using List.reverseRecOn with
  | nil =>
    refine iff_of_false (by simp [run, table?_of_empty hempty]) ?_
    rintro ⟨before, made, since, heq, -⟩
    simp [history] at heq
  | append_singleton commands c ih =>
    rw [run_append_singleton, history_append_singleton, stands_append_singleton, ← ih]
    exact isSome_table?_execute _ c name

theorem mem_names_iff : name ∈ db.names ↔ (db.table? name).isSome = true := by
  rw [names, Std.ExtTreeMap.mem_keys, Std.ExtTreeMap.mem_iff_isSome_getElem?, table?]

/-- Whatever commands are run on a database without tables, a further one is only about the table under
its name, two on different names can be exchanged, and the names listed are those of the tables there
are. -/
theorem isolates_of_run (hempty : db.tables = ∅) (commands : List Command) :
    (∀ c, (db.run commands).Isolates c) ∧
    (∀ c d : Command, c.name ≠ d.name → (db.run commands).Commutes c d) ∧
    (db.run commands).names.Nodup ∧
    ∀ name, (name ∈ (db.run commands).names ↔ ((db.run commands).table? name).isSome = true) ∧
      (name ∈ (db.run commands).names ↔ Stands name (db.history commands)) :=
  ⟨((governed_of_empty hempty).run commands).isolates, fun _ _ => commutes_of_name_ne _,
    Std.ExtTreeMap.nodup_keys,
    fun name => ⟨mem_names_iff, mem_names_iff.trans (isSome_table?_run hempty commands name)⟩⟩

/-- A table that is made, filled, dropped and made again, and another one beside it. -/
def madeAgain : List Command := [
  .createWith "fruits" [⟨"name", .text, 8, true, true, false⟩],
  .createWith "prices" [⟨"price", .integer, 4, false, false, false⟩],
  .insert "fruits" (.positional [.str "plum"]),
  .drop "fruits",
  .createWith "prices" [],
  .createWith "fruits" [⟨"name", .text, 8, true, true, false⟩]]

/-- Then a row for the one and a drop of the other can be exchanged. -/
theorem isolates_of_run_madeAgain : ∃ db, new .default = .ok db ∧
    (db.run madeAgain).names = ["fruits", "prices"] ∧
    ((db.run madeAgain).table? "fruits").map Table.rowCount = some 0 ∧
    Stands "fruits" (db.history madeAgain) ∧
    (db.run madeAgain).Isolates (.insert "fruits" (.positional [.str "pear"])) ∧
    (db.run madeAgain).Commutes (.insert "fruits" (.positional [.str "pear"])) (.drop "prices") := by
  have htest : (new .default).toOption.any (fun db => decide
      ((db.run madeAgain).names = ["fruits", "prices"] ∧
        ((db.run madeAgain).table? "fruits").map Table.rowCount = some 0)) = true := by
    decide +kernel
  cases hdb : new .default with
  | error e => simp [hdb, Except.toOption] at htest
  | ok db =>
    simp only [hdb, Except.toOption, Option.any_some, decide_eq_true_eq] at htest
    obtain ⟨hnames, hcount⟩ := htest
    obtain ⟨hisolates, hcommutes, -, hlisted⟩ := isolates_of_run (new_eq_ok hdb).2 madeAgain
    refine ⟨db, rfl, hnames, hcount, (hlisted "fruits").2.mp ?_, hisolates _,
      hcommutes _ _ (by decide)⟩
    rw [hnames]
    decide

end Database

end TypedTables
