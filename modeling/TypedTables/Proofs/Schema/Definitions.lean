import TypedTables.Proofs.Schema.Positions
import TypedTables.Proofs.Schema.Valid
import TypedTables.Proofs.Text.Words

/-!
# Column definitions in JSON

What a JSON object says about a column, part by part, and which column it defines (`ColumnDecl.DefinedBy`).
The definitions of a list are read just if each of them defines a column and no two name the same; the
schema has these columns, in this order, and it is valid.
-/

namespace TypedTables

open Text Json

/-! ## Values -/

/-- The values that do not count as true. -/
inductive Json.Falsy : Json → Prop where
  | null : Falsy .null
  | false : Falsy (.bool false)
  | zero : Falsy (.num (.whole 0))
  | realZero (negative : Bool) : Falsy (.num (.real (.signedZero negative)))
  | empty : Falsy (.str "")

theorem Json.isTruthy_iff {j : Json} : j.isTruthy = true ↔ ¬j.Falsy := by
  have hfalsy : j.isTruthy = false ↔ j.Falsy := by
    constructor
    · intro h
      cases j with
      | null => exact .null
      | bool b =>
        cases b with
        | false => exact .false
        | true => cases h
      | num n =>
        cases n with
        | whole n =>
          have hn : n = 0 := by simpa [isTruthy, Number.isZero] using h
          rw [hn]
          exact .zero
        | real x =>
          obtain ⟨negative, magnitude, hlt⟩ := x
          have hx : magnitude = 0 := by simpa [isTruthy, Number.isZero] using h
          subst hx
          exact .realZero negative
      | str s =>
        have hs : s = "" := by simpa [isTruthy] using h
        rw [hs]
        exact .empty
      | arr items => cases h
      | obj fields => cases h
    · rintro (_ | _ | _ | _ | _) <;> rfl
  rw [← hfalsy, Bool.not_eq_false]

theorem Json.toUnsigned?_eq_some {j : Json} {size : Nat} :
    j.toUnsigned? = some size ↔ j = .num (.whole size) ∧ size < UInt64.size := by
  constructor
  · intro h
    unfold toUnsigned? Number.toUnsigned? at h
    split at h
    · split at h
      · obtain ⟨hrange, hsize⟩ := Option.ite_none_right_eq_some.mp h
        cases hsize
        refine ⟨?_, by omega⟩
        rw [Int.toNat_of_nonneg hrange.1]
      · cases h
    · cases h
  · rintro ⟨rfl, hword⟩
    have hrange : (0 : Int) ≤ size ∧ (size : Int) < UInt64.size := by omega
    rw [toUnsigned?, Number.toUnsigned?, if_pos hrange]
    rfl

namespace ColumnDecl

variable {config : Config} {index : Nat} {earlier : List String} {fields : List (String × Json)}
  {column name : String} {type : ColumnType} {size : Nat} {attributes : List Attribute} {d : ColumnDecl}

/-! ## Parts -/

/-- The name is an identifier, and not reserved in any case of its letters. -/
structure NameOf (config : Config) (fields : List (String × Json)) (name : String) : Prop where
  given : field? "name" fields = some (.str name)
  identifier : IsIdentifier name.toList
  free : ∀ r ∈ config.reservedNames, lower r ≠ lower name

/-- The type is named, in any case of its letters. -/
def TypeOf (fields : List (String × Json)) (type : ColumnType) : Prop :=
  ∃ word, field? "type" fields = some (.str word) ∧ sameIgnoringCase type.name word = true

/-- The size is a whole number of 64 bits without a sign, between the bounds. -/
structure SizeOf (config : Config) (fields : List (String × Json)) (size : Nat) : Prop where
  given : field? "size" fields = some (.num (.whole size))
  word : size < UInt64.size
  least : config.minSize ≤ size
  most : size ≤ config.maxSize

/-- The attributes are left out, null, or listed by their names. -/
inductive AttributesOf (fields : List (String × Json)) : List Attribute → Prop where
  | leftOut (missing : field? "attributes" fields = none) : AttributesOf fields []
  | null (given : field? "attributes" fields = some .null) : AttributesOf fields []
  | listed {labels : List String} {attributes : List Attribute}
    (given : field? "attributes" fields = some (.arr (labels.map .str)))
    (named : List.Forall₂ (fun label a => sameIgnoringCase a.name label = true) labels attributes) :
    AttributesOf fields attributes

/-- There is a field of this name, and what it says counts as true. -/
def Says (fields : List (String × Json)) (name : String) : Prop :=
  ∃ j, field? name fields = some j ∧ ¬j.Falsy

def name? : Json → Option String
  | .obj fields =>
    match field? "name" fields with
    | some (.str name) => some name
    | _ => none
  | _ => none

/-- The object defines the column. -/
structure DefinedBy (config : Config) (d : ColumnDecl) (fields : List (String × Json)) : Prop where
  name : NameOf config fields d.name
  type : TypeOf fields d.type
  size : SizeOf config fields d.size
  unique : d.unique = true ↔ Says fields "unique"
  required : d.required = true ↔ Says fields "required"
  attributes : ∃ attributes, AttributesOf fields attributes ∧
    (d.autoincrement = true ↔ .autoincrement ∈ attributes)
  numeric : d.autoincrement = true → d.type = .number ∨ d.type = .integer

/-! ## Reading the parts -/

theorem typeOfName?_eq_some_iff {word : String} :
    ColumnType.ofName? word = some type ↔ sameIgnoringCase type.name word = true :=
  ⟨sameIgnoringCase_of_find?, find?_of_sameIgnoringCase (ColumnType.ofName?_name type)⟩

theorem attributeOfName?_eq_some_iff {label : String} {a : Attribute} :
    Attribute.ofName? label = some a ↔ sameIgnoringCase a.name label = true :=
  ⟨sameIgnoringCase_of_find?, find?_of_sameIgnoringCase (Attribute.ofName?_name a)⟩

def readNameOf (config : Config) (index : Nat) (earlier : List String) (fields : List (String × Json)) :
    Except SchemaError String := do
  let name ← readName index (field? "name" fields)
  config.requireName index earlier name
  return name

def readSizeOf (config : Config) (column : String) (fields : List (String × Json)) :
    Except SchemaError Nat := do
  let size ← readSize column (field? "size" fields)
  config.requireSize column size
  return size

def ofParts (fields : List (String × Json)) (name : String) (type : ColumnType) (size : Nat)
    (attributes : List Attribute) : ColumnDecl where
  name := name
  type := type
  size := size
  unique := (field? "unique" fields).any isTruthy
  required := (field? "required" fields).any isTruthy
  autoincrement := attributes.contains .autoincrement

theorem ofJson_obj (config : Config) (index : Nat) (earlier : List String)
    (fields : List (String × Json)) : ofJson config index earlier (.obj fields) = (do
      let name ← readNameOf config index earlier fields
      let type ← readType name (field? "type" fields)
      let size ← readSizeOf config name fields
      let attributes ← readAttributes name (field? "attributes" fields)
      (ofParts fields name type size attributes).requireNumeric
      return ofParts fields name type size attributes) := by
  simp only [ofJson, readNameOf, readSizeOf, ofParts, bind_assoc, pure_bind, Outcome.ok_bind]

theorem readName_eq_ok {o : Option Json} : readName index o = .ok name ↔ o = some (.str name) := by
  constructor
  · intro h
    unfold readName at h
    split at h <;> cases h
    rfl
  · rintro rfl
    rfl

theorem readNameOf_eq_ok : readNameOf config index earlier fields = .ok name ↔
    NameOf config fields name ∧ name ∉ earlier := by
  constructor
  · intro h
    obtain ⟨_, hname, h⟩ := Outcome.bind_eq_ok.mp h
    obtain ⟨_, hrules, h⟩ := Outcome.bind_eq_ok.mp h
    cases h
    obtain ⟨hidentifier, hfree, hnew⟩ := Config.requireName_eq_ok.mp hrules
    exact ⟨⟨readName_eq_ok.mp hname, hidentifier, hfree⟩, hnew⟩
  · rintro ⟨h, hnew⟩
    rw [readNameOf, readName_eq_ok.mpr h.given, Outcome.ok_bind,
      Config.requireName_eq_ok.mpr ⟨h.identifier, h.free, hnew⟩]
    rfl

theorem readType_eq_ok : readType column (field? "type" fields) = .ok type ↔ TypeOf fields type := by
  constructor
  · intro h
    unfold readType at h
    split at h
    · cases h
    · cases h
    · next word hword =>
      split at h
      · next htype =>
        cases h
        exact ⟨word, hword, typeOfName?_eq_some_iff.mp htype⟩
      · cases h
    · cases h
  · rintro ⟨word, hword, hsame⟩
    rw [hword, readType, typeOfName?_eq_some_iff.mpr hsame]

theorem readSize_eq_ok : readSize column (field? "size" fields) = .ok size ↔
    field? "size" fields = some (.num (.whole size)) ∧ size < UInt64.size := by
  have hsize : (field? "size" fields).bind toUnsigned? = some size ↔
      field? "size" fields = some (.num (.whole size)) ∧ size < UInt64.size := by
    rw [Option.bind_eq_some_iff]
    simp only [Json.toUnsigned?_eq_some]
    constructor
    · rintro ⟨_, hj, rfl, hword⟩
      exact ⟨hj, hword⟩
    · rintro ⟨hj, hword⟩
      exact ⟨_, hj, rfl, hword⟩
  rw [← hsize, readSize]
  cases (field? "size" fields).bind toUnsigned? <;> simp

theorem readSizeOf_eq_ok : readSizeOf config column fields = .ok size ↔ SizeOf config fields size := by
  constructor
  · intro h
    obtain ⟨_, hsize, h⟩ := Outcome.bind_eq_ok.mp h
    obtain ⟨_, hbounds, h⟩ := Outcome.bind_eq_ok.mp h
    cases h
    obtain ⟨hgiven, hword⟩ := readSize_eq_ok.mp hsize
    obtain ⟨hleast, hmost⟩ := Config.requireSize_eq_ok.mp hbounds
    exact ⟨hgiven, hword, hleast, hmost⟩
  · intro h
    rw [readSizeOf, readSize_eq_ok.mpr ⟨h.given, h.word⟩, Outcome.ok_bind,
      Config.requireSize_eq_ok.mpr ⟨h.least, h.most⟩]
    rfl

theorem readAttributeList_eq_ok {items : List Json} : readAttributeList column items = .ok attributes ↔
    ∃ labels, items = labels.map .str ∧
      List.Forall₂ (fun label a => sameIgnoringCase a.name label = true) labels attributes := by
  induction items generalizing attributes with
  | nil =>
    constructor
    · rintro ⟨⟩
      exact ⟨[], rfl, .nil⟩
    · rintro ⟨labels, hlabels, hall⟩
      obtain rfl := List.map_eq_nil_iff.mp hlabels.symm
      cases hall
      rfl
  | cons item items ih =>
    constructor
    · intro h
      cases item with
      | str label =>
        rw [readAttributeList] at h
        split at h
        · next a ha =>
          obtain ⟨as, has, h⟩ := Outcome.bind_eq_ok.mp h
          cases h
          obtain ⟨labels, rfl, hall⟩ := ih.mp has
          exact ⟨label :: labels, rfl, .cons (attributeOfName?_eq_some_iff.mp ha) hall⟩
        · cases h
      | _ => cases h
    · rintro ⟨labels, hlabels, hall⟩
      obtain ⟨label, labels, rfl, rfl, rfl⟩ := List.map_eq_cons_iff.mp hlabels.symm
      cases hall with
      | cons ha hall =>
        rw [readAttributeList, attributeOfName?_eq_some_iff.mpr ha]
        dsimp only
        rw [ih.mpr ⟨labels, rfl, hall⟩]
        rfl

theorem readAttributes_eq_ok : readAttributes column (field? "attributes" fields) = .ok attributes ↔
    AttributesOf fields attributes := by
  constructor
  · intro h
    unfold readAttributes at h
    split at h
    · next hmissing =>
      cases h
      exact .leftOut hmissing
    · next hnull =>
      cases h
      exact .null hnull
    · next hitems =>
      obtain ⟨labels, rfl, hall⟩ := readAttributeList_eq_ok.mp h
      exact .listed hitems hall
    · cases h
  · rintro (hmissing | hnull | ⟨hitems, hall⟩)
    · rw [hmissing]
      rfl
    · rw [hnull]
      rfl
    · rw [hitems]
      exact readAttributeList_eq_ok.mpr ⟨_, rfl, hall⟩

theorem any_isTruthy_iff : (field? name fields).any isTruthy = true ↔ Says fields name := by
  simp only [Option.any_eq_true, isTruthy_iff, Says]

/-! ## Reading a definition -/

/-- A definition is read just if it defines a column under a new name, and as this column. -/
theorem ofJson_eq_ok {j : Json} : ofJson config index earlier j = .ok d ↔
    (∃ fields, j = .obj fields ∧ d.DefinedBy config fields) ∧ d.name ∉ earlier := by
  constructor
  · intro h
    cases j with
    | obj fields =>
      rw [ofJson_obj] at h
      obtain ⟨name, hname, h⟩ := Outcome.bind_eq_ok.mp h
      obtain ⟨type, htype, h⟩ := Outcome.bind_eq_ok.mp h
      obtain ⟨size, hsize, h⟩ := Outcome.bind_eq_ok.mp h
      obtain ⟨attributes, hattributes, h⟩ := Outcome.bind_eq_ok.mp h
      obtain ⟨_, hnumeric, h⟩ := Outcome.bind_eq_ok.mp h
      cases h
      obtain ⟨hname, hnew⟩ := readNameOf_eq_ok.mp hname
      refine ⟨⟨fields, rfl, ?_⟩, hnew⟩
      exact {
        name := hname
        type := readType_eq_ok.mp htype
        size := readSizeOf_eq_ok.mp hsize
        unique := any_isTruthy_iff
        required := any_isTruthy_iff
        attributes := ⟨attributes, readAttributes_eq_ok.mp hattributes, List.contains_iff_mem⟩
        numeric := requireNumeric_eq_ok.mp hnumeric }
    | _ => cases h
  · rintro ⟨⟨fields, rfl, h⟩, hnew⟩
    obtain ⟨attributes, hattributes, hauto⟩ := h.attributes
    have hparts : ofParts fields d.name d.type d.size attributes = d := by
      have hunique := Bool.eq_iff_iff.mpr (any_isTruthy_iff.trans h.unique.symm)
      have hrequired := Bool.eq_iff_iff.mpr (any_isTruthy_iff.trans h.required.symm)
      have hcontains : attributes.contains .autoincrement = d.autoincrement :=
        Bool.eq_iff_iff.mpr (List.contains_iff_mem.trans hauto.symm)
      rw [ofParts, hunique, hrequired, hcontains]
    rw [ofJson_obj, readNameOf_eq_ok.mpr ⟨h.name, hnew⟩, Outcome.ok_bind, readType_eq_ok.mpr h.type,
      Outcome.ok_bind, readSizeOf_eq_ok.mpr h.size, Outcome.ok_bind, readAttributes_eq_ok.mpr hattributes,
      Outcome.ok_bind, hparts, requireNumeric_eq_ok.mpr h.numeric]
    rfl

theorem DefinedBy.valid (h : d.DefinedBy config fields) : d.Valid config where
  name := h.name.identifier
  free := h.name.free
  size := ⟨h.size.least, h.size.most⟩
  numeric := h.numeric

end ColumnDecl

/-! ## Reading a list of definitions -/

namespace Schema

variable {config : Config} {s : Schema} {j : Json} {items : List Json} {ds : List ColumnDecl}

/-- The list of definitions defines the columns of the schema, one by one. -/
structure DefinedBy (config : Config) (s : Schema) (items : List Json) : Prop where
  nonempty : items ≠ []
  columns : List.Forall₂ (fun item d => ∃ fields, item = .obj fields ∧ d.DefinedBy config fields)
    items s.columns
  distinct : s.names.Nodup

/-- Each definition is one of a column, and no two name the same. -/
structure Acceptable (config : Config) (items : List Json) : Prop where
  nonempty : items ≠ []
  columns : ∀ item ∈ items, ∃ d fields, item = .obj fields ∧ ColumnDecl.DefinedBy config d fields
  distinct : (items.filterMap ColumnDecl.name?).Nodup

theorem ofJson_eq_ok : ofJson config j = .ok s ↔ ∃ items, j = .arr items ∧ s.DefinedBy config items := by
  have hitems : ∀ items, ofItems (ColumnDecl.ofJson config) items = .ok s ↔ s.DefinedBy config items := by
    intro items
    refine Iff.trans (ofItems_eq_ok ColumnDecl.ofJson_eq_ok) ?_
    constructor
    · rintro ⟨hne, hall, hnodup⟩
      exact ⟨hne, hall, hnodup⟩
    · intro h
      exact ⟨h.nonempty, h.columns, h.distinct⟩
  constructor
  · intro h
    cases j with
    | arr items => exact ⟨items, rfl, (hitems items).mp h⟩
    | _ => cases h
  · rintro ⟨items, rfl, h⟩
    exact (hitems items).mpr h

theorem filterMap_name?
    (h : List.Forall₂ (fun item d => ∃ fields, item = .obj fields ∧ ColumnDecl.DefinedBy config d fields)
      items ds) : items.filterMap ColumnDecl.name? = ds.map ColumnDecl.name := by
  induction h with
  | nil => rfl
  | @cons _ d items ds hd hall ih =>
    obtain ⟨fields, rfl, hd⟩ := hd
    have hname : ColumnDecl.name? (.obj fields) = some d.name := by
      rw [ColumnDecl.name?, hd.name.given]
    rw [List.filterMap_cons_some hname, ih, List.map_cons]

/-- Definitions are acceptable just if they define the columns of a schema. -/
theorem exists_definedBy_iff :
    (∃ s, DefinedBy config s items) ↔ Acceptable config items := by
  constructor
  · rintro ⟨s, h⟩
    refine ⟨h.nonempty, Outcome.exists_forall₂_iff.mp ⟨_, h.columns⟩, ?_⟩
    rw [filterMap_name? h.columns]
    exact h.distinct
  · intro h
    obtain ⟨ds, hds⟩ := Outcome.exists_forall₂_iff.mpr h.columns
    refine ⟨⟨ds⟩, h.nonempty, hds, ?_⟩
    rw [names, ← filterMap_name? hds]
    exact h.distinct

theorem DefinedBy.valid (h : s.DefinedBy config items) : s.Valid config where
  nonempty hnil := by
    have hall := h.columns
    rw [hnil, List.forall₂_nil_right_iff] at hall
    exact h.nonempty hall
  distinct := h.distinct
  columns := Outcome.forall_mem_of_forall₂ <| h.columns.imp fun _ _ hd => by
    obtain ⟨fields, -, hd⟩ := hd
    exact hd.valid

theorem Checked.valid (h : s.Checked config) : s.Valid config := by
  rcases h with ⟨j, h⟩ | ⟨defs, h⟩
  · obtain ⟨items, -, hs⟩ := ofJson_eq_ok.mp h
    exact hs.valid
  · exact (ofDefs_eq_ok_iff.mp h).2

end Schema

end TypedTables
