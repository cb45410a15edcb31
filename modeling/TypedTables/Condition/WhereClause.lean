import TypedTables.Condition.Basic

/-!
# Where clauses

A where clause is a list of conditions with join words between them. `OR` binds tighter than
`AND`: conditions joined by it form a group, of which one must be true. Of the conditions outside
groups all must be true, and none of those after `NOT`. The list is read from the left: a condition
goes to those outside groups, and `OR` moves it from there into a group, where a `NOT` before it is
lost.
-/

namespace TypedTables

open Text

/-- A where clause that has been understood. -/
structure WhereClause where
  /-- Conditions that must be true. -/
  allOf : List Condition
  /-- Groups in each of which one condition must be true. -/
  anyOf : List (List Condition)
  /-- Conditions that must not be true. -/
  noneOf : List Condition
  deriving DecidableEq

namespace WhereClause

def empty : WhereClause := ⟨[], [], []⟩

def isEmpty (t : WhereClause) : Bool := t.allOf.isEmpty && t.anyOf.isEmpty && t.noneOf.isEmpty

def holds (t : WhereClause) (row : Row) : Bool :=
  t.allOf.all (·.holds row) && !t.noneOf.any (·.holds row) &&
    t.anyOf.all fun group => group.any (·.holds row)

end WhereClause

/-! ## Join words -/

/-- A word between conditions. -/
inductive JoinWord where
  | and
  | or
  | not
  deriving DecidableEq, Repr

namespace JoinWord

def word : JoinWord → String
  | and => "AND"
  | or => "OR"
  | not => "NOT"

def every : List JoinWord := [and, or, not]

def ofWord? (s : String) : Option JoinWord := every.find? (sameIgnoringCase ·.word s)

@[simp] theorem ofWord?_word (j : JoinWord) : ofWord? j.word = some j := by
  cases j <;> decide +kernel

end JoinWord

/-! ## Reading -/

/-- Where in a clause a condition has been put. -/
inductive Slot where
  | allOf
  | noneOf
  /-- The group at a position. -/
  | anyOf (group : Nat)
  deriving DecidableEq

/-- A where clause of which a part has been read. -/
structure PartialClause where
  clause : WhereClause
  /-- Where the condition before is. -/
  last : Option Slot
  /-- The join that waits for a condition. -/
  pending : Option JoinWord
  deriving DecidableEq

namespace WhereClause

/-- Takes the last condition out of those outside groups: of those after `NOT`, or else of the
others. -/
def pop? (t : WhereClause) : Slot → Option (Condition × WhereClause)
  | .noneOf => t.noneOf.getLast?.map fun c => (c, { t with noneOf := t.noneOf.dropLast })
  | _ => t.allOf.getLast?.map fun c => (c, { t with allOf := t.allOf.dropLast })

/-- Puts a condition after `OR` into the group of the condition before, which is opened for the two
of them if there is none. -/
def extend (t : WhereClause) (c : Condition) :
    Option Slot → Except ConditionError (WhereClause × Slot)
  | some (.anyOf group) =>
    .ok ({ t with anyOf := t.anyOf.modify group (· ++ [c]) }, .anyOf group)
  | some slot =>
    match t.pop? slot with
    | some (moved, t) =>
      .ok ({ t with anyOf := t.anyOf ++ [[moved, c]] }, .anyOf t.anyOf.length)
    | none => .error (.danglingOperator JoinWord.or.word)
  | none => .error (.danglingOperator JoinWord.or.word)

/-- Puts a condition after a join word where it belongs; `last` is where the condition before is. -/
def place (t : WhereClause) (last : Option Slot) (c : Condition) :
    JoinWord → Except ConditionError (WhereClause × Slot)
  | .and => .ok ({ t with allOf := t.allOf ++ [c] }, .allOf)
  | .not => .ok ({ t with noneOf := t.noneOf ++ [c] }, .noneOf)
  | .or => t.extend c last

end WhereClause

namespace PartialClause

def start : PartialClause := ⟨.empty, none, none⟩

/-- Takes a join word. `NOT` may follow `AND`, and may come first; other words need a condition
right before them. -/
def join (p : PartialClause) (text : String) (j : JoinWord) : Except ConditionError PartialClause :=
  match p.pending, j with
  | none, .not | some .and, .not => .ok { p with pending := some .not }
  | none, j =>
    if p.last.isSome then .ok { p with pending := some j }
    else .error (.danglingOperator j.word)
  | some _, _ => .error (.malformed text)

/-- Takes a condition; where no join waits for it, `AND` does. -/
def condition (p : PartialClause) (c : Condition) : Except ConditionError PartialClause := do
  let (clause, slot) ← p.clause.place p.last c (p.pending.getD .and)
  return ⟨clause, some slot, none⟩

def item (s : Schema) (p : PartialClause) (item : String) : Except ConditionError PartialClause :=
  let text := trimmed item.toList
  match JoinWord.ofWord? text with
  | some j => p.join text j
  | none => do
    let c ← Condition.read s text
    p.condition c

def finish (p : PartialClause) : Except ConditionError WhereClause :=
  match p.pending with
  | some j => .error (.danglingOperator j.word)
  | none => .ok p.clause

end PartialClause

def WhereClause.read (s : Schema) (items : List String) : Except ConditionError WhereClause := do
  let p ← items.foldlM (PartialClause.item s) .start
  p.finish

end TypedTables
