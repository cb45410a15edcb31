import TypedTables.Database

/-!
# Commands

What can be asked of a database, and what the database is after it, whether it was done or refused.
-/

namespace TypedTables

inductive Command where
  /-- A new table, with columns in JSON. -/
  | create (name : String) (columns : Json)
  | createWith (name : String) (defs : List ColumnDecl)
  | drop (name : String)
  | insert (name : String) (input : RowInput)
  | get (name : String) (q : Query)

namespace Command

def name : Command → String
  | create name _ | createWith name _ | drop name | insert name _ | get name _ => name

end Command

namespace Database

/-- What a command answers; only a query answers more than that it was done. -/
abbrev Reply := Except DatabaseError (Option Query.Answer)

/-- The new database, or the one before it together with the complaint that there is none. -/
def orKeep (db : Database) : Except DatabaseError Database → Database × Reply
  | .ok db' => (db', .ok none)
  | .error e => (db, .error e)

def execute (db : Database) : Command → Database × Reply
  | .create name columns => db.orKeep (db.create name columns)
  | .createWith name defs => db.orKeep (db.createWith name defs)
  | .drop name => db.orKeep (db.drop name)
  | .insert name input =>
    let (db, taken) := db.insertRow name input
    (db, taken.map fun _ => none)
  | .get name q => (db, (db.get name q).map some)

def run (db : Database) (commands : List Command) : Database :=
  commands.foldl (fun db c => (db.execute c).1) db

end Database

end TypedTables
