import TypedTables.Row.Error
import TypedTables.Value.Basic

/-!
# Columns

The slots of one column of a table. The contents lie in an array of their own kind, one for each
slot, and a mask tells which slots are empty. An empty slot has a placeholder in the array that is
never read. Texts, times and dates lie in the same kind of array; the type of the column tells them
apart.
-/

namespace TypedTables

/-- The contents of all slots. -/
inductive Store where
  | integers (xs : Array Int64)
  | numbers (xs : Array Binary64)
  | texts (xs : Array String)
  | booleans (xs : Array Bool)
  deriving DecidableEq

namespace Store

/-- No slots, for contents of a type. -/
def ofType : ColumnType → Store
  | .integer => integers #[]
  | .number => numbers #[]
  | .boolean => booleans #[]
  | .text | .time | .date => texts #[]

def size : Store → Nat
  | integers xs => xs.size
  | numbers xs => xs.size
  | texts xs => xs.size
  | booleans xs => xs.size

/-- One slot more, with a placeholder in it. -/
def pushPlaceholder : Store → Store
  | integers xs => integers (xs.push 0)
  | numbers xs => numbers (xs.push .zero)
  | texts xs => texts (xs.push "")
  | booleans xs => booleans (xs.push false)

/-- One slot more, with a value in it, if values of its kind lie here. -/
def push? : Store → Value → Option Store
  | integers xs, .integer i => some (integers (xs.push i))
  | numbers xs, .number x => some (numbers (xs.push x))
  | texts xs, .text s | texts xs, .time s | texts xs, .date s => some (texts (xs.push s))
  | booleans xs, .boolean b => some (booleans (xs.push b))
  | _, _ => none

def get? (type : ColumnType) : Store → Nat → Option Value
  | integers xs, i => xs[i]?.map .integer
  | numbers xs, i => xs[i]?.map .number
  | booleans xs, i => xs[i]?.map .boolean
  | texts xs, i =>
    xs[i]?.map fun s =>
      match type with
      | .time => .time s
      | .date => .date s
      | _ => .text s

end Store

structure Column where
  name : String
  type : ColumnType
  store : Store
  /-- The empty slots are `true`. -/
  empties : Array Bool
  deriving DecidableEq

namespace Column

def new (name : String) (type : ColumnType) : Column := ⟨name, type, .ofType type, #[]⟩

def size (c : Column) : Nat := c.empties.size

def accepts (c : Column) (v : Value) : Bool := v.columnType?.all (· == c.type)

def mismatch (c : Column) (v : Value) : RowError := .typeMismatch c.name c.type v.display

def push (c : Column) (v : Value) : Except RowError Column :=
  if v.isNull then
    .ok { c with store := c.store.pushPlaceholder, empties := c.empties.push true }
  else if !c.accepts v then .error (c.mismatch v)
  else
    match c.store.push? v with
    | some store => .ok { c with store, empties := c.empties.push false }
    | none => .error (c.mismatch v)

def get? (c : Column) (i : Nat) : Option Value :=
  match c.empties[i]? with
  | none => none
  | some true => some .null
  | some false => c.store.get? c.type i

def last? (c : Column) : Option Value := if c.size = 0 then none else c.get? (c.size - 1)

def toList (c : Column) : List Value := (List.range c.size).filterMap c.get?

def holds {α : Type} (c : Column) (xs : Array α) (p : α → Bool) : Bool :=
  (xs.zip c.empties).any fun (x, empty) => p x && !empty

/-- Some slot that is not empty has the content of the value. Numbers are compared as numbers; a
text, a time and a date have the same content if they are the same text. -/
def contains (c : Column) (v : Value) : Bool :=
  match c.store, v with
  | .integers xs, .integer i => c.holds xs (· == i)
  | .numbers xs, .number x => c.holds xs (·.sameNumber x)
  | .texts xs, .text s | .texts xs, .time s | .texts xs, .date s => c.holds xs (· == s)
  | .booleans xs, .boolean b => c.holds xs (· == b)
  | _, _ => false

end Column

end TypedTables
