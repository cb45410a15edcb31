import TypedTables.Json.Printer
import TypedTables.Query.Error

/-!
# Queries

What a caller asks for, in the caller's own words. Nothing is checked against a schema here.
-/

namespace TypedTables

open Json

structure Query where
  /-- The columns to return, in order; all of them if there are none. -/
  keys : Option (List String) := none
  /-- Names of columns to sort by, with a direction after a colon or not. -/
  order : List String := []
  /-- Conditions and join words. -/
  clause : List String := []
  /-- How many matching rows to look for. -/
  limit : Option Int64 := none
  /-- What to return of the matching rows instead of all of them. -/
  method : Option String := none
  deriving DecidableEq

namespace Query

/-- One text or a list of them; null is none. -/
def readTexts? : Json → Option (List String)
  | .null => some []
  | .str s => some [s]
  | .arr items => texts? items
  | _ => none

def orInvalid {α : Type} (argument : QueryArgument) : Option α → Except QueryError α
  | some a => .ok a
  | none => .error (.invalidShape argument)

def readKeys : Json → Except QueryError (Option (List String))
  | .null => .ok none
  | .arr items => (orInvalid .keys (texts? items)).map some
  | _ => .error (.invalidShape .keys)

def readLimit : Json → Except QueryError (Option Int64)
  | .null => .ok none
  | .num n =>
    match n.toSigned? with
    | some i => .ok (some i)
    | none => .error (.invalidLimit (toString n))
  | j => .error (.invalidLimit (toString j))

def readMethod : Json → Except QueryError (Option String)
  | .null => .ok none
  | .str s => .ok (some s)
  | _ => .error (.invalidShape .method)

def setField (q : Query) (name : String) (value : Json) : Except QueryError Query :=
  match name with
  | "keys" => do return { q with keys := ← readKeys value }
  | "order" => do return { q with order := ← orInvalid .order (readTexts? value) }
  | "where" => do return { q with clause := ← orInvalid .clause (readTexts? value) }
  | "limit" => do return { q with limit := ← readLimit value }
  | "method" => do return { q with method := ← readMethod value }
  | _ => .error (.invalidShape .fields)

/-- The query that a JSON value describes: null, or an object of which every field counts. -/
def ofJson : Json → Except QueryError Query
  | .null => .ok {}
  | .obj fields => fields.foldlM (fun q (name, value) => q.setField name value) {}
  | _ => .error (.invalidShape .query)

end Query

end TypedTables
