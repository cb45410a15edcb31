import TypedTables.Query.Plan
import TypedTables.Sorting

/-!
# Answers to queries

Rows are looked at in the order in which they are stored, until as many match as the limit allows.
What the reduction takes of them, or all of them in the order asked for, is returned with the
columns asked for.
-/

namespace TypedTables

inductive Query.Answer where
  | rows (columns : List String) (rows : List Row)
  /-- The first or last matching row, if any row matches. -/
  | row (columns : List String) (row : Option Row)
  | count (n : Nat)
  deriving DecidableEq

/-! ## Scanning -/

/-- The first rows that `keep` wants, as many as the limit allows; rows after them are not looked
at. -/
def scan (keep : Row → Bool) : Option Nat → List Row → List Row
  | _, [] => []
  | some 0, _ :: _ => []
  | limit, row :: rows =>
    if keep row then row :: scan keep (limit.map (· - 1)) rows else scan keep limit rows

/-! ## Sorting -/

def compareIn (column : Nat × Direction) (a b : Row) : Ordering :=
  let o := (a.getD column.1 .null).compare (b.getD column.1 .null)
  match column.2 with
  | .ascending => o
  | .descending => o.swap

def compareRows : List (Nat × Direction) → Row → Row → Ordering
  | [], _, _ => .eq
  | column :: rest, a, b => (compareIn column a b).then (compareRows rest a b)

/-- The rows in order; rows that are equal in every column sorted by stay in the order they had. -/
def sortRows (order : List (Nat × Direction)) (rows : List Row) : List Row :=
  Sorting.sort (compareRows order) rows

/-! ## Answers -/

namespace Query.Plan

def project (p : Query.Plan) (row : Row) : Row :=
  match p.projection with
  | none => row
  | some is => is.map (row.getD · .null)

def columns (p : Query.Plan) (s : Schema) : List String :=
  match p.projection with
  | none => s.names
  | some is => is.map (s.names.getD · "")

def run (p : Query.Plan) (s : Schema) (rows : List Row) : Query.Answer :=
  let matching := scan p.clause.holds p.limit rows
  match p.reduction with
  | some .count => .count matching.length
  | some .first => .row (p.columns s) (matching.head?.map p.project)
  | some .last => .row (p.columns s) (matching.getLast?.map p.project)
  | none => .rows (p.columns s) ((sortRows p.order matching).map p.project)

end Query.Plan

def Query.run (q : Query) (s : Schema) (rows : List Row) :
    Except QueryError Query.Answer := do
  let plan ← Query.Plan.ofQuery s q
  return plan.run s rows

end TypedTables
