import TypedTables.Database.Command
import TypedTables.Proofs.Schema.Valid

/-!
# Described columns

A column definition can be given as a JSON object (`ColumnDecl.toJson`). Reading the object goes
through the same rules in the same order as checking the definition, with the parts of the definition
read in between, none of which fails. So a list of definitions and the list of their objects make the
same schema, or are refused for the same reason, and make the same table in a database.
-/

namespace TypedTables

open Json

namespace ColumnDecl

/-! ## Objects of definitions -/

def attributes (d : ColumnDecl) : List Attribute := if d.autoincrement then [.autoincrement] else []

def toJson (d : ColumnDecl) : Json :=
  .obj <| insertField "name" (.str d.name) <| insertField "type" (.str d.type.name) <|
    insertField "size" (.num (.whole d.size)) <| insertField "unique" (.bool d.unique) <|
    insertField "required" (.bool d.required) <|
    insertField "attributes" (.arr (d.attributes.map fun a => .str a.name)) []

structure DescribedBy (d : ColumnDecl) (fields : List (String × Json)) : Prop where
  name : field? "name" fields = some (.str d.name)
  type : field? "type" fields = some (.str d.type.name)
  size : field? "size" fields = some (.num (.whole d.size))
  unique : field? "unique" fields = some (.bool d.unique)
  required : field? "required" fields = some (.bool d.required)
  attributes : field? "attributes" fields = some (.arr (d.attributes.map fun a => .str a.name))

theorem exists_describedBy (d : ColumnDecl) : ∃ fields, d.toJson = .obj fields ∧ d.DescribedBy fields := by
  refine ⟨_, rfl, ?_, ?_, ?_, ?_, ?_, ?_⟩ <;>
    simp [field?_insertField_self, field?_insertField_of_ne]

/-! ## Reading them -/

variable {config : Config} {index : Nat} {earlier : List String} {d : ColumnDecl}
  {fields : List (String × Json)}

theorem readAttributeList_names (column : String) (attributes : List Attribute) :
    readAttributeList column (attributes.map fun a => .str a.name) = .ok attributes := by
  induction attributes with
  | nil => rfl
  | cons a attributes ih =>
    rw [List.map_cons, readAttributeList, Attribute.ofName?_name]
    dsimp only
    rw [ih]
    rfl

theorem contains_attributes (d : ColumnDecl) :
    d.attributes.contains .autoincrement = d.autoincrement := by
  unfold attributes
  cases d.autoincrement <;> rfl

/-- The parts are read as what they are, so only the rules are left. -/
theorem DescribedBy.ofJson_eq (h : d.DescribedBy fields) (hsize : d.size < UInt64.size) :
    ofJson config index earlier (.obj fields) = d.check config index earlier := by
  have hname : readName index (field? "name" fields) = .ok d.name := by rw [h.name, readName]
  have htype : readType d.name (field? "type" fields) = .ok d.type := by
    rw [h.type, readType, ColumnType.ofName?_name]
  have hread : readSize d.name (field? "size" fields) = .ok d.size := by
    have hbound : (0 : Int) ≤ d.size ∧ (d.size : Int) < UInt64.size := by omega
    rw [h.size, readSize, Option.bind_some, toUnsigned?, Number.toUnsigned?, if_pos hbound]
    rfl
  have hattributes : readAttributes d.name (field? "attributes" fields) = .ok d.attributes := by
    rw [h.attributes, readAttributes, readAttributeList_names]
  have hunique : (field? "unique" fields).any isTruthy = d.unique := by rw [h.unique]; rfl
  have hrequired : (field? "required" fields).any isTruthy = d.required := by rw [h.required]; rfl
  rw [ofJson, check]
  simp only [Outcome.ok_bind, hname, htype, hread, hattributes, hunique, hrequired,
    contains_attributes]

theorem ofJson_toJson (hsize : d.size < UInt64.size) :
    ofJson config index earlier d.toJson = d.check config index earlier := by
  obtain ⟨fields, hfields, hd⟩ := d.exists_describedBy
  rw [hfields, hd.ofJson_eq hsize]

end ColumnDecl

/-! ## Schemas -/

namespace Schema

variable {config : Config} {defs : List ColumnDecl}

theorem collect_map {α β : Type} {f : β → α}
    {define : Nat → List String → α → Except SchemaError ColumnDecl}
    {define' : Nat → List String → β → Except SchemaError ColumnDecl} {items : List β}
    (h : ∀ item ∈ items, ∀ index earlier, define index earlier (f item) = define' index earlier item)
    (index : Nat) (earlier : List String) :
    collect define index earlier (items.map f) = collect define' index earlier items := by
  induction items generalizing index earlier with
  | nil => rfl
  | cons item items ih =>
    obtain ⟨hitem, hitems⟩ := List.forall_mem_cons.mp h
    rw [List.map_cons, collect, collect, hitem]
    simp only [ih hitems]

theorem ofJson_toJson (h : ∀ d ∈ defs, d.size < UInt64.size) :
    ofJson config (.arr (defs.map ColumnDecl.toJson)) = ofDefs config defs := by
  rw [ofJson, ofDefs, ofItems, ofItems, List.isEmpty_map,
    collect_map fun d hd _ _ => ColumnDecl.ofJson_toJson (h d hd)]

theorem ofDefs_eq_ok {s : Schema} (h : ofDefs config defs = .ok s) : s.columns = defs :=
  (ofDefs_eq_ok_iff.mp h).1

/-- The objects of definitions with sizes of machine words make what the definitions make: the schema
of these columns, or the same complaint, and in every database the same table or complaint. -/
theorem made_alike (config : Config) (h : ∀ d ∈ defs, d.size < UInt64.size) :
    ofJson config (.arr (defs.map ColumnDecl.toJson)) = ofDefs config defs ∧
      (∀ s, ofDefs config defs = .ok s → s.columns = defs) ∧
      ∀ (db : Database) (name : String),
        db.execute (.create name (.arr (defs.map ColumnDecl.toJson))) =
          db.execute (.createWith name defs) := by
  refine ⟨ofJson_toJson h, fun s hs => ofDefs_eq_ok hs, fun db name => ?_⟩
  rw [Database.execute, Database.execute, Database.create, Database.createWith, ofJson_toJson h]

/-- Two columns that pass, and two of which the first breaks the last rule and the second all. -/
theorem made_alike_pairs :
    let valid : List ColumnDecl :=
      [⟨"id", .integer, 6, true, false, true⟩, ⟨"name", .text, 32, false, true, false⟩]
    let faulty : List ColumnDecl :=
      [⟨"id", .text, 6, true, false, true⟩, ⟨"order", .text, 0, false, true, true⟩]
    (ofDefs .default valid = .ok ⟨valid⟩ ∧ ∀ d ∈ valid, d.size < UInt64.size) ∧
      (ofDefs .default faulty = .error (.autoincrementNeedsNumber "id" .text) ∧
        ∀ d ∈ faulty, d.size < UInt64.size) ∧
      ofJson .default (.arr (valid.map ColumnDecl.toJson)) = .ok ⟨valid⟩ ∧
      ofJson .default (.arr (faulty.map ColumnDecl.toJson)) =
        .error (.autoincrementNeedsNumber "id" .text) := by
  intro valid faulty
  have hvalid : ofDefs .default valid = .ok ⟨valid⟩ ∧ ∀ d ∈ valid, d.size < UInt64.size := by
    decide +kernel
  have hfaulty : ofDefs .default faulty = .error (.autoincrementNeedsNumber "id" .text) ∧
      ∀ d ∈ faulty, d.size < UInt64.size := by decide +kernel
  exact ⟨hvalid, hfaulty, (made_alike .default hvalid.2).1.trans hvalid.1,
    (made_alike .default hfaulty.2).1.trans hfaulty.1⟩

end Schema

end TypedTables
