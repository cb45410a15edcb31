import TypedTables.Condition.WhereClause
import TypedTables.Query.Basic

/-!
# Query plans

A query held against a schema: names have become positions and words have become meanings. The
parts are looked at in the order columns, sorting, where clause, limit, method, and the first that
is wrong is reported.
-/

namespace TypedTables

open Text

/-- What is returned of the matching rows instead of all of them. -/
inductive Reduction where
  | first
  | last
  | count
  deriving DecidableEq, Repr

namespace Reduction

def name : Reduction → String
  | first => "first"
  | last => "last"
  | count => "count"

def all : List Reduction := [first, last, count]

def ofName? (s : String) : Option Reduction := all.find? (sameIgnoringCase ·.name s)

@[simp] theorem ofName?_name (r : Reduction) : ofName? r.name = some r := by
  cases r <;> decide +kernel

end Reduction

inductive Direction where
  | ascending
  | descending
  deriving DecidableEq, Repr

namespace Direction

def word : Direction → String
  | ascending => "ASC"
  | descending => "DESC"

def all : List Direction := [ascending, descending]

def ofWord? (s : String) : Option Direction := all.find? (sameIgnoringCase ·.word s)

@[simp] theorem ofWord?_word (d : Direction) : ofWord? d.word = some d := by
  cases d <;> decide +kernel

end Direction

structure Query.Plan where
  /-- Positions of the columns to return; `none` is all of them. -/
  projection : Option (List Nat)
  /-- Positions to sort by, the most important first. -/
  order : List (Nat × Direction)
  clause : WhereClause
  limit : Option Nat
  /-- What to return of the matching rows; `none` is all of them, in order. -/
  reduction : Option Reduction
  deriving DecidableEq

namespace Query.Plan

def locate (s : Schema) (key : String) : Except QueryError Nat :=
  match s.position? key with
  | some i => .ok i
  | none => .error (.unknownKey key)

/-- The positions of columns of which none may be among those before it. -/
def locateAll (s : Schema) (earlier : List Nat) : List String → Except QueryError (List Nat)
  | [] => .ok []
  | key :: keys => do
    let i ← locate s key
    if earlier.contains i then throw (.duplicateKey key)
    let is ← locateAll s (i :: earlier) keys
    return i :: is

def readProjection (s : Schema) : Option (List String) → Except QueryError (Option (List Nat))
  | none | some [] => .ok none
  | some keys => do return some (← locateAll s [] keys)

/-- A name, or a name and a direction with a colon between them. -/
def readOrderEntry (s : Schema) (entry : String) : Except QueryError (Nat × Direction) := do
  let name := entry.toList.takeWhile (· != ':')
  let direction ←
    match entry.toList.dropWhile (· != ':') with
    | [] => .ok .ascending
    | _ :: word =>
      match Direction.ofWord? (trimmed word) with
      | some d => .ok d
      | none => .error (QueryError.invalidOrder entry)
  let i ← locate s (trimmed name)
  return (i, direction)

def readLimit : Option Int64 → Except QueryError (Option Nat)
  | none => .ok none
  | some i =>
    if 0 ≤ i.toInt then .ok (some i.toInt.toNat)
    else .error (.invalidLimit (toString i.toInt))

def readReduction : Option String → Except QueryError (Option Reduction)
  | none => .ok none
  | some name =>
    match Reduction.ofName? name with
    | some m => .ok (some m)
    | none => .error (.unknownMethod name)

def readClause (s : Schema) (items : List String) : Except QueryError WhereClause :=
  (WhereClause.read s items).mapError .condition

def ofQuery (s : Schema) (q : Query) : Except QueryError Plan := do
  let projection ← readProjection s q.keys
  let order ← q.order.mapM (readOrderEntry s)
  let clause ← readClause s q.clause
  let limit ← readLimit q.limit
  let reduction ← readReduction q.method
  if reduction = some .count ∧ order ≠ [] then throw .countWithOrder
  return { projection, order, clause, limit, reduction }

end Query.Plan

end TypedTables
