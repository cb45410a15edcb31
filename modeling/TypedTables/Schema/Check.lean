import TypedTables.Config.Basic
import TypedTables.Json.Printer
import TypedTables.Schema.Basic
import TypedTables.Schema.Error

/-!
# Checked schemas

A schema is made of column definitions, given as such or in JSON, one by one. Each is held against
the configuration and the names before it, and the first rule that it breaks is reported: name,
type, size, attributes, in this order.
-/

namespace TypedTables

open Text Json

/-! ## Rules -/

namespace Config

/-- A name is an identifier, not reserved, and not the name of an earlier column. -/
def requireName (config : Config) (index : Nat) (earlier : List String) (name : String) :
    Except SchemaError Unit :=
  if !isIdentifier name.toList then .error (.invalidName index name)
  else if config.isReserved name then .error (.reservedName name)
  else if earlier.contains name then .error (.duplicateName name)
  else .ok ()

def requireSize (config : Config) (column : String) (size : Nat) : Except SchemaError Unit :=
  if config.minSize ≤ size ∧ size ≤ config.maxSize then .ok ()
  else .error (.sizeOutOfRange column size config.minSize config.maxSize)

end Config

namespace ColumnDecl

def requireNumeric (d : ColumnDecl) : Except SchemaError Unit :=
  if d.autoincrement && !d.type.isNumeric then
    .error (.autoincrementNeedsNumber d.name d.type)
  else .ok ()

/-- Holds a definition against all rules. -/
def check (config : Config) (index : Nat) (earlier : List String) (d : ColumnDecl) :
    Except SchemaError ColumnDecl := do
  config.requireName index earlier d.name
  config.requireSize d.name d.size
  d.requireNumeric
  return d

/-! ## Definitions in JSON -/

def readName (index : Nat) : Option Json → Except SchemaError String
  | some (.str name) => .ok name
  | some j => .error (.invalidName index (toString j))
  | none => .error (.invalidName index "")

def readType (column : String) : Option Json → Except SchemaError ColumnType
  | none | some .null => .error (.missingType column)
  | some (.str s) =>
    match ColumnType.ofName? s with
    | some type => .ok type
    | none => .error (.unknownType column s)
  | some j => .error (.unknownType column (toString j))

def readSize (column : String) (j : Option Json) : Except SchemaError Nat :=
  match j.bind toUnsigned? with
  | some size => .ok size
  | none => .error (.invalidSize column)

def readAttributeList (column : String) : List Json → Except SchemaError (List Attribute)
  | [] => .ok []
  | .str s :: rest =>
    match Attribute.ofName? s with
    | some a => do return a :: (← readAttributeList column rest)
    | none => .error (.unknownAttribute column s)
  | _ :: _ => .error (.invalidAttributes column)

def readAttributes (column : String) : Option Json → Except SchemaError (List Attribute)
  | none | some .null => .ok []
  | some (.arr items) => readAttributeList column items
  | some _ => .error (.invalidAttributes column)

/-- The definition that a JSON object describes, held against all rules. -/
def ofJson (config : Config) (index : Nat) (earlier : List String) (j : Json) :
    Except SchemaError ColumnDecl := do
  let fields ←
    match j with
    | .obj fields => .ok fields
    | _ => .error (SchemaError.invalidDefinition index)
  let name ← readName index (field? "name" fields)
  config.requireName index earlier name
  let type ← readType name (field? "type" fields)
  let size ← readSize name (field? "size" fields)
  config.requireSize name size
  let attributes ← readAttributes name (field? "attributes" fields)
  let d : ColumnDecl :=
    { name, type, size
      unique := (field? "unique" fields).any isTruthy
      required := (field? "required" fields).any isTruthy
      autoincrement := attributes.contains .autoincrement }
  d.requireNumeric
  return d

end ColumnDecl

/-! ## Schemas -/

namespace Schema

/-- The definitions that `define` makes of the items, each from its index, the names before it and
the item itself. -/
def collect {α : Type} (define : Nat → List String → α → Except SchemaError ColumnDecl) :
    Nat → List String → List α → Except SchemaError (List ColumnDecl)
  | _, _, [] => .ok []
  | index, earlier, item :: items => do
    let d ← define index earlier item
    let ds ← collect define (index + 1) (d.name :: earlier) items
    return d :: ds

/-- The schema of the items, of which there must be one. -/
def ofItems {α : Type} (define : Nat → List String → α → Except SchemaError ColumnDecl)
    (items : List α) : Except SchemaError Schema := do
  if items.isEmpty then throw .noColumns
  let columns ← collect define 0 [] items
  return ⟨columns⟩

def ofDefs (config : Config) (defs : List ColumnDecl) : Except SchemaError Schema :=
  ofItems (ColumnDecl.check config) defs

def ofJson (config : Config) : Json → Except SchemaError Schema
  | .arr items => ofItems (ColumnDecl.ofJson config) items
  | _ => .error .notAList

end Schema

end TypedTables
