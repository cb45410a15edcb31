import TypedTables.Query.Answer
import TypedTables.Row.Encoding

/-!
# Tables

A schema and the rows that have been taken in, column by column.
-/

namespace TypedTables

structure Table where
  name : String
  schema : Schema
  formats : Formats Pattern
  columns : List Column
  rowCount : Nat
  deriving DecidableEq

namespace Table

def new (name : String) (schema : Schema) (formats : Formats Pattern) : Table :=
  ⟨name, schema, formats, schema.columns.map fun d => .new d.name d.type, 0⟩

/-- One slot more in every column, with the values of a row in them, until a column refuses its
value. Gives the columns as they are then, with a slot more in those before that column. -/
def pushRow : List Column → Row → List Column × Except RowError Unit
  | c :: cs, v :: vs =>
    match c.push v with
    | .ok c =>
      let (cs, pushed) := pushRow cs vs
      (c :: cs, pushed)
    | .error e => (c :: cs, .error e)
  | cs, _ => (cs, .ok ())

/-- Every value has room in its column; the first that has not is reported. -/
def checkRow : List Column → Row → Except RowError Unit
  | c :: cs, v :: vs => if c.accepts v then checkRow cs vs else .error (c.mismatch v)
  | _, _ => .ok ()

/-- Writes a row at the end of the table. Gives the table that is there then, also if a column has
refused its value. -/
def append (t : Table) (row : Row) : Table × Except RowError Unit :=
  let (columns, pushed) := pushRow t.columns row
  match pushed with
  | .ok () => ({ t with columns, rowCount := t.rowCount + 1 }, .ok ())
  | .error e => ({ t with columns }, .error e)

/-- Takes a row in at the end of the table. Gives the table that is there then, whether the row has
been taken in or not. -/
def insert (t : Table) (input : RowInput) : Table × Except RowError Unit :=
  match input.encode t.formats t.schema t.columns with
  | .error e => (t, .error e)
  | .ok row =>
    match checkRow t.columns row with
    | .error e => (t, .error e)
    | .ok () => t.append row

def row? (t : Table) (i : Nat) : Option Row :=
  if i < t.rowCount then t.columns.mapM (·.get? i) else none

def rows (t : Table) : List Row := (List.range t.rowCount).filterMap t.row?

def column? (t : Table) (name : String) : Option Column :=
  (t.schema.position? name).bind (t.columns[·]?)

def get (t : Table) (q : Query) : Except QueryError Query.Answer := q.run t.schema t.rows

def getJson (t : Table) (j : Json) : Except QueryError Query.Answer := do
  let q ← Query.ofJson j
  t.get q

end Table

end TypedTables
