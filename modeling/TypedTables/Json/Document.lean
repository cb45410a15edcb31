import TypedTables.Json.Basic
import TypedTables.Json.Token

/-!
# JSON documents

A document is JSON as it was written: fields in the order of the text, names possibly repeated,
and pieces that no JSON value holds. `Document.read?` reads a text that is one document and nothing
else; `Document.toJson?` is the value that a document denotes, if each of its pieces denotes one.
-/

namespace TypedTables.Json

/-- JSON as it was written. -/
inductive Document where
  | null
  | bool (b : Bool)
  | number (n : Option Number)
  | text (s : Option String)
  | list (items : List Document)
  | fields (entries : List (Option String × Document))
  deriving Inhabited

namespace Document

mutual

def value? (ts : List Token) :
    Option (Document × { rest : List Token // rest.length < ts.length }) :=
  match ts with
  | .null :: rest => some (.null, ⟨rest, by simp⟩)
  | .bool b :: rest => some (.bool b, ⟨rest, by simp⟩)
  | .number n :: rest => some (.number n, ⟨rest, by simp⟩)
  | .text s :: rest => some (.text s, ⟨rest, by simp⟩)
  | .listOpen :: .listClose :: rest =>
    some (.list [], ⟨rest, by simp only [List.length_cons]; omega⟩)
  | .listOpen :: rest =>
    match items? [] rest with
    | some (items, ⟨rest, _⟩) =>
      some (.list items, ⟨rest, by simp only [List.length_cons]; omega⟩)
    | none => none
  | .fieldsOpen :: .fieldsClose :: rest =>
    some (.fields [], ⟨rest, by simp only [List.length_cons]; omega⟩)
  | .fieldsOpen :: rest =>
    match entries? [] rest with
    | some (entries, ⟨rest, _⟩) =>
      some (.fields entries, ⟨rest, by simp only [List.length_cons]; omega⟩)
    | none => none
  | _ => none
termination_by (ts.length, 0)

/-- The items of a list up to its end, onto those already read, the last first. -/
def items? (done : List Document) (ts : List Token) :
    Option (List Document × { rest : List Token // rest.length < ts.length }) :=
  match value? ts with
  | some (item, ⟨.comma :: rest, h⟩) =>
    have : rest.length < ts.length := by simp only [List.length_cons] at h; omega
    match items? (item :: done) rest with
    | some (items, ⟨rest, _⟩) => some (items, ⟨rest, by simp only [List.length_cons] at *; omega⟩)
    | none => none
  | some (item, ⟨.listClose :: rest, _⟩) =>
    some ((item :: done).reverse, ⟨rest, by simp only [List.length_cons] at *; omega⟩)
  | _ => none
termination_by (ts.length, 1)

def entries? (done : List (Option String × Document)) (ts : List Token) :
    Option (List (Option String × Document) × { rest : List Token // rest.length < ts.length }) :=
  match ts with
  | .text name :: .colon :: body =>
    match value? body with
    | some (value, ⟨.comma :: rest, h⟩) =>
      have : rest.length < body.length := by simp only [List.length_cons] at h; omega
      match entries? ((name, value) :: done) rest with
      | some (entries, ⟨rest, _⟩) =>
        some (entries, ⟨rest, by simp only [List.length_cons] at *; omega⟩)
      | none => none
    | some (value, ⟨.fieldsClose :: rest, _⟩) =>
      some (((name, value) :: done).reverse, ⟨rest, by simp only [List.length_cons] at *; omega⟩)
    | _ => none
  | _ => none
termination_by (ts.length, 1)

end

def read? (s : List Char) : Option Document :=
  match tokens? s with
  | some ts =>
    match value? ts with
    | some (d, ⟨[], _⟩) => some d
    | _ => none
  | none => none

mutual

/-- The value that a document denotes; of fields with one name the last counts. -/
def toJson? : Document → Option Json
  | .null => some .null
  | .bool b => some (.bool b)
  | .number n => n.map .num
  | .text s => s.map .str
  | .list items => (listToJson? items).map .arr
  | .fields entries => (fieldsToJson? [] entries).map .obj

def listToJson? : List Document → Option (List Json)
  | [] => some []
  | d :: ds => do return (← toJson? d) :: (← listToJson? ds)

def fieldsToJson? (fields : List (String × Json)) :
    List (Option String × Document) → Option (List (String × Json))
  | [] => some fields
  | (name, d) :: rest =>
    match name, toJson? d with
    | some name, some value => fieldsToJson? (insertField name value fields) rest
    | _, _ => none

end

end Document

def read? (s : String) : Option Json := (Document.read? s.toList).bind Document.toJson?

end TypedTables.Json
