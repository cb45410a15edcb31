import TypedTables.Column
import TypedTables.Formats.Patterns
import TypedTables.Json.Printer
import TypedTables.Schema.Basic
import TypedTables.Value.Reader

/-!
# Encoded rows

A row comes as JSON, by name or by position, and is encoded column by column: what is supplied is
read as a value of the type of the column, what is missing is empty or counted on, and a unique
column must not hold the value yet. Null counts as missing.
-/

namespace TypedTables

open Json

/-- The values of a row as they are supplied. -/
inductive RowInput where
  | named (fields : List (String × Json))
  | positional (items : List Json)

/-- An object is a row by name, a list a row by position, and anything else a row of one value. -/
def RowInput.ofJson : Json → RowInput
  | .obj fields => named fields
  | .arr items => positional items
  | j => positional [j]

/-! ## Supplied values -/

def RowInput.supplied (s : Schema) : RowInput → Except RowError (List (Option Json))
  | named fields =>
    match fields.find? fun (key, _) => (s.position? key).isNone with
    | some (key, _) => .error (.unknownKey key)
    | none => .ok (s.columns.map fun d => (field? d.name fields).filter (!·.isNull))
  | positional items =>
    if s.size < items.length then .error (.tooManyValues s.size items.length)
    else .ok ((List.range s.size).map fun i => items[i]?.filter (!·.isNull))

/-! ## Values of one column -/

/-- The text of a supplied value, which must be a text, a number or a boolean. -/
def rawText? : Json → Option String
  | .str s => some s
  | .num n => some (toString n)
  | .bool b => some (toString b)
  | _ => none

namespace ColumnDecl

/-- The value that a supplied one is read as: its text is not too long, matches the pattern of the
type and denotes a value of the type. -/
def readRaw (d : ColumnDecl) (formats : Formats Pattern) (raw : Json) : Except RowError Value :=
  match rawText? raw with
  | none => .error (.invalidKind d.name)
  | some text =>
    if d.size < text.length then .error (.tooLong d.name d.size text.length)
    else if !formats.accepts d.type text then .error (.typeMismatch d.name d.type text)
    else
      match Value.read? d.type text with
      | some v => .ok v
      | none => .error (.typeMismatch d.name d.type text)

/-- The value after the last one of the column; the first is one. A number that does not change when
one is added has none after it. -/
def successor (d : ColumnDecl) (column : Column) : Except RowError Value :=
  match d.type, column.last? with
  | .number, some (.number x) =>
    let next := x.addOne
    if !next.isFinite || next.sameNumber x then .error (.overflow d.name (toString x))
    else .ok (.number next)
  | .number, _ => .ok (.number (Binary64.ofInt 1))
  | _, some (.integer i) =>
    if i < Int64.maxValue then .ok (.integer (i + 1))
    else .error (.overflow d.name (toString i.toInt))
  | _, _ => .ok (.integer 1)

/-- The value of a slot before the look at the values that are there. -/
def slotValue (d : ColumnDecl) (formats : Formats Pattern) (column : Column) :
    Option Json → Except RowError Value
  | some raw => d.readRaw formats raw
  | none =>
    if d.required then .error (.missingValue d.name)
    else if d.autoincrement then d.successor column
    else .ok .null

def encodeSlot (d : ColumnDecl) (formats : Formats Pattern) (column : Column) (raw : Option Json) :
    Except RowError Value := do
  let v ← d.slotValue formats column raw
  if d.unique && column.contains v then throw (.duplicateValue d.name v.display)
  return v

end ColumnDecl

/-! ## Rows -/

def encodeSlots (formats : Formats Pattern) :
    List ColumnDecl → List Column → List (Option Json) → Except RowError Row
  | d :: ds, c :: cs, raw :: raws => do
    let v ← d.encodeSlot formats c raw
    let vs ← encodeSlots formats ds cs raws
    return v :: vs
  | _, _, _ => .ok []

def RowInput.encode (formats : Formats Pattern) (s : Schema) (columns : List Column)
    (input : RowInput) : Except RowError Row := do
  let raws ← input.supplied s
  encodeSlots formats s.columns columns raws

end TypedTables
