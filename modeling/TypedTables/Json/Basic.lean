import TypedTables.Json.Number

/-!
# JSON values

The fields of an object are in increasing order of their names, and no name is there twice:
`insertField` keeps it so.
-/

namespace TypedTables

inductive Json where
  | null
  | bool (b : Bool)
  | num (n : Json.Number)
  | str (s : String)
  | arr (items : List Json)
  | obj (fields : List (String × Json))
  deriving Inhabited

namespace Json

/-! ## Fields -/

/-- Puts a field in its place, instead of the one that has its name. -/
def insertField (name : String) (value : Json) : List (String × Json) → List (String × Json)
  | [] => [(name, value)]
  | (n, v) :: rest =>
    match compare name n with
    | .lt => (name, value) :: (n, v) :: rest
    | .eq => (name, value) :: rest
    | .gt => (n, v) :: insertField name value rest

def field? (name : String) : List (String × Json) → Option Json
  | [] => none
  | (n, v) :: rest => if n == name then some v else field? name rest

theorem field?_insertField_self (name : String) (value : Json) (fields : List (String × Json)) :
    field? name (insertField name value fields) = some value := by
  induction fields with
  | nil => simp [insertField, field?]
  | cons f rest ih =>
    obtain ⟨n, v⟩ := f
    rw [insertField]
    split
    · simp [field?]
    · simp [field?]
    · next h =>
      have hne : n ≠ name := fun e => by simp [e] at h
      simp [field?, hne, ih]

theorem field?_insertField_of_ne {name other : String} (h : other ≠ name) (value : Json)
    (fields : List (String × Json)) :
    field? other (insertField name value fields) = field? other fields := by
  induction fields with
  | nil => simp [insertField, field?, h.symm]
  | cons f rest ih =>
    obtain ⟨n, v⟩ := f
    rw [insertField]
    split
    · simp [field?, h.symm]
    · next e =>
      have hn : name = n := Std.LawfulEqOrd.eq_of_compare e
      subst hn
      simp [field?, h.symm]
    · simp [field?, ih]

/-! ## Views -/

def isNull : Json → Bool
  | null => true
  | _ => false

def toText? : Json → Option String
  | str s => some s
  | _ => none

def toUnsigned? : Json → Option Nat
  | num n => n.toUnsigned?
  | _ => none

/-- Everything but null, `false`, zero and the empty text counts as true. -/
def isTruthy : Json → Bool
  | null => false
  | bool b => b
  | num n => !n.isZero
  | str s => !s.isEmpty
  | arr _ => true
  | obj _ => true

def texts? (items : List Json) : Option (List String) := items.mapM toText?

end Json

end TypedTables
