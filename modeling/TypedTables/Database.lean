import Std.Data.ExtTreeMap
import TypedTables.Schema.Check
import TypedTables.Table

/-!
# Databases

Tables under names, all made with one configuration. A command that fails gives no new database,
so the one before it stays.
-/

namespace TypedTables

open Text

inductive DatabaseError where
  | tableExists (name : String)
  | tableNotFound (name : String)
  | schema (e : SchemaError)
  | row (e : RowError)
  | query (e : QueryError)
  deriving DecidableEq

def DatabaseError.message : DatabaseError → String
  | tableExists name => "table " ++ quote name ++ " already exists"
  | tableNotFound name => "table " ++ quote name ++ " does not exist"
  | schema e => e.message
  | row e => e.message
  | query e => e.message

structure Database where
  config : Config
  formats : Formats Pattern
  tables : Std.ExtTreeMap String Table

namespace Database

/-- A database without tables. Sizes are checked before patterns are read. -/
def new (config : Config) : Except ConfigError Database := do
  config.requireSizes
  let formats ← config.formats.readPatterns
  return ⟨config, formats, ∅⟩

def names (db : Database) : List String := db.tables.keys

def table? (db : Database) (name : String) : Option Table := db.tables[name]?

def table (db : Database) (name : String) : Except DatabaseError Table :=
  match db.table? name with
  | some t => .ok t
  | none => .error (.tableNotFound name)

def put (db : Database) (name : String) (t : Table) : Database :=
  { db with tables := db.tables.insert name t }

/-- A new table for a schema, which is not looked at if the name is taken. -/
def createTable (db : Database) (name : String) (schema : Except SchemaError Schema) :
    Except DatabaseError Database := do
  if (db.table? name).isSome then throw (.tableExists name)
  let schema ← schema.mapError .schema
  return db.put name (.new name schema db.formats)

def create (db : Database) (name : String) (columns : Json) : Except DatabaseError Database :=
  db.createTable name (Schema.ofJson db.config columns)

def createWith (db : Database) (name : String) (defs : List ColumnDecl) :
    Except DatabaseError Database :=
  db.createTable name (Schema.ofDefs db.config defs)

def drop (db : Database) (name : String) : Except DatabaseError Database := do
  let _ ← db.table name
  return { db with tables := db.tables.erase name }

/-- Takes a row into a table. Gives the database that is there then, whether the row has been taken
in or not. -/
def insertRow (db : Database) (name : String) (input : RowInput) :
    Database × Except DatabaseError Unit :=
  match db.table name with
  | .error e => (db, .error e)
  | .ok t =>
    let (t, taken) := t.insert input
    (db.put name t, taken.mapError .row)

def insert (db : Database) (name : String) (input : RowInput) : Except DatabaseError Database :=
  let (db, taken) := db.insertRow name input
  taken.map fun _ => db

def get (db : Database) (name : String) (q : Query) : Except DatabaseError Query.Answer := do
  let t ← db.table name
  (t.get q).mapError .query

end Database

end TypedTables
