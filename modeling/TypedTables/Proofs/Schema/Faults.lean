import TypedTables.Proofs.FirstFault
import TypedTables.Proofs.Schema.Definitions

/-!
# Faults of column definitions

What can be wrong with the parts of a column definition (`ColumnDecl.PartFault`). A list of definitions that
makes no schema is refused for the first definition that is at fault, and there for the first of its parts
that is (`Schema.Refused`). A definition is at fault by itself or because one before it has its name.
-/

namespace TypedTables

open Text Json

namespace ColumnDecl

variable {config : Config} {index : Nat} {earlier : List String} {before : List Json}
  {fields : List (String × Json)} {column name : String} {size : Nat} {d : ColumnDecl} {e : SchemaError}

/-! ## Faults -/

/-- The parts of a definition in the order in which they are looked at. -/
inductive Part where
  | name
  | type
  | size
  | attributes
  /-- Only columns of numbers count on. -/
  | numeric

def Part.all : List Part := [.name, .type, .size, .attributes, .numeric]

/-- What is wrong with the name in a definition that comes after others. -/
inductive NameFault (config : Config) (before : List Json) (fields : List (String × Json)) :
    SchemaError → Prop where
  | missing (absent : field? "name" fields = none) :
    NameFault config before fields (.invalidName before.length "")
  | notText {j : Json} (given : field? "name" fields = some j) (other : ∀ s, j ≠ .str s) :
    NameFault config before fields (.invalidName before.length (toString j))
  | notIdentifier {name : String} (given : field? "name" fields = some (.str name))
    (other : ¬IsIdentifier name.toList) :
    NameFault config before fields (.invalidName before.length name)
  | reserved {name r : String} (given : field? "name" fields = some (.str name))
    (identifier : IsIdentifier name.toList) (mem : r ∈ config.reservedNames)
    (same : lower r = lower name) : NameFault config before fields (.reservedName name)
  | again {name : String} (named : NameOf config fields name) (seen : name ∈ before.filterMap name?) :
    NameFault config before fields (.duplicateName name)

inductive TypeFault (column : String) (fields : List (String × Json)) : SchemaError → Prop where
  | missing (absent : field? "type" fields = none) : TypeFault column fields (.missingType column)
  | null (given : field? "type" fields = some .null) : TypeFault column fields (.missingType column)
  | unknown {word : String} (given : field? "type" fields = some (.str word))
    (other : ∀ type : ColumnType, sameIgnoringCase type.name word = false) :
    TypeFault column fields (.unknownType column word)
  | notText {j : Json} (given : field? "type" fields = some j) (present : j ≠ .null)
    (other : ∀ s, j ≠ .str s) : TypeFault column fields (.unknownType column (toString j))

inductive SizeFault (config : Config) (column : String) (fields : List (String × Json)) :
    SchemaError → Prop where
  | notWhole (other : ∀ size : Nat, size < UInt64.size → field? "size" fields ≠ some (.num (.whole size))) :
    SizeFault config column fields (.invalidSize column)
  | outside {size : Nat} (given : field? "size" fields = some (.num (.whole size)))
    (word : size < UInt64.size) (outside : ¬(config.minSize ≤ size ∧ size ≤ config.maxSize)) :
    SizeFault config column fields (.sizeOutOfRange column size config.minSize config.maxSize)

inductive LabelFault (column : String) : Json → SchemaError → Prop where
  | notText {item : Json} (other : ∀ s, item ≠ .str s) :
    LabelFault column item (.invalidAttributes column)
  | unknown {label : String} (other : ∀ a : Attribute, sameIgnoringCase a.name label = false) :
    LabelFault column (.str label) (.unknownAttribute column label)

inductive AttributesFault (column : String) (fields : List (String × Json)) : SchemaError → Prop where
  | notList {j : Json} (given : field? "attributes" fields = some j) (present : j ≠ .null)
    (other : ∀ items, j ≠ .arr items) : AttributesFault column fields (.invalidAttributes column)
  | label {items : List Json} {e : SchemaError} (given : field? "attributes" fields = some (.arr items))
    (first : FirstFault (fun _ => LabelFault column) items e) : AttributesFault column fields e

inductive ColumnFault (config : Config) (column : String) (fields : List (String × Json)) :
    Part → SchemaError → Prop where
  | type {e : SchemaError} (fault : TypeFault column fields e) : ColumnFault config column fields .type e
  | size {e : SchemaError} (fault : SizeFault config column fields e) :
    ColumnFault config column fields .size e
  | attributes {e : SchemaError} (fault : AttributesFault column fields e) :
    ColumnFault config column fields .attributes e
  | numeric {type : ColumnType} {attributes : List Attribute} (typed : TypeOf fields type)
    (listed : AttributesOf fields attributes) (counting : .autoincrement ∈ attributes)
    (other : type ≠ .number ∧ type ≠ .integer) :
    ColumnFault config column fields .numeric (.autoincrementNeedsNumber column type)

inductive PartFault (config : Config) (before : List Json) (fields : List (String × Json)) :
    Part → SchemaError → Prop where
  | name {e : SchemaError} (fault : NameFault config before fields e) : PartFault config before fields .name e
  | behind {part : Part} {column : String} {e : SchemaError}
    (named : field? "name" fields = some (.str column)) (fault : ColumnFault config column fields part e) :
    PartFault config before fields part e

/-- What is wrong with a definition that comes after others: it is no object, or the first of its parts that
is at fault. -/
inductive Fault (config : Config) (before : List Json) : Json → SchemaError → Prop where
  | notObject {j : Json} (other : ∀ fields, j ≠ .obj fields) :
    Fault config before j (.invalidDefinition before.length)
  | part {fields : List (String × Json)} {e : SchemaError}
    (first : FirstFault (fun _ => PartFault config before fields) Part.all e) :
    Fault config before (.obj fields) e

/-! ## Names -/

theorem requireName_eq_error : config.requireName index earlier name = .error e ↔
    ¬IsIdentifier name.toList ∧ e = .invalidName index name ∨
    IsIdentifier name.toList ∧ (∃ r ∈ config.reservedNames, lower r = lower name) ∧
      e = .reservedName name ∨
    IsIdentifier name.toList ∧ (∀ r ∈ config.reservedNames, lower r ≠ lower name) ∧
      name ∈ earlier ∧ e = .duplicateName name := by
  rw [← Config.isReserved_eq_false_iff, ← Config.isReserved_iff, ← isIdentifier_iff, ← List.contains_iff_mem,
    Config.requireName]
  cases isIdentifier name.toList <;> cases config.isReserved name <;> cases earlier.contains name <;>
    simp [eq_comm]

theorem readNameOf_eq_error_of_given (given : field? "name" fields = some (.str name)) :
    readNameOf config index earlier fields = .error e ↔ config.requireName index earlier name = .error e := by
  rw [readNameOf, readName_eq_ok.mpr given, Outcome.ok_bind, Outcome.bind_pure_eq_error]

/-- The name is refused for its fault. The names before it are those that the definitions give. -/
theorem readNameOf_eq_error (hseen : ∀ name, name ∈ earlier ↔ name ∈ before.filterMap name?) :
    readNameOf config before.length earlier fields = .error e ↔ NameFault config before fields e := by
  constructor
  · intro h
    cases hfield : field? "name" fields with
    | none =>
      rw [readNameOf, hfield] at h
      cases h
      exact .missing hfield
    | some j =>
      by_cases htext : ∃ name, j = .str name
      · obtain ⟨name, rfl⟩ := htext
        rw [readNameOf_eq_error_of_given hfield, requireName_eq_error] at h
        rcases h with ⟨other, rfl⟩ | ⟨identifier, ⟨r, mem, same⟩, rfl⟩ | ⟨identifier, free, again, rfl⟩
        · exact .notIdentifier hfield other
        · exact .reserved hfield identifier mem same
        · exact .again ⟨hfield, identifier, free⟩ ((hseen name).mp again)
      · have other : ∀ s, j ≠ .str s := fun s hs => htext ⟨s, hs⟩
        have hread : readName before.length (some j) = .error (.invalidName before.length (toString j)) := by
          rw [readName]
          exact other
        rw [readNameOf, hfield, hread] at h
        cases h
        exact .notText hfield other
  · rintro (absent | ⟨given, other⟩ | ⟨given, other⟩ | ⟨given, identifier, mem, same⟩ | ⟨named, seen⟩)
    · rw [readNameOf, absent]
      rfl
    · rw [readNameOf, given, readName]
      · rfl
      · exact other
    · rw [readNameOf_eq_error_of_given given, requireName_eq_error]
      exact .inl ⟨other, rfl⟩
    · rw [readNameOf_eq_error_of_given given, requireName_eq_error]
      exact .inr (.inl ⟨identifier, ⟨_, mem, same⟩, rfl⟩)
    · rw [readNameOf_eq_error_of_given named.given, requireName_eq_error]
      exact .inr (.inr ⟨named.identifier, named.free, (hseen _).mpr seen, rfl⟩)

/-! ## The other parts -/

theorem typeOfName?_eq_none_iff {word : String} : ColumnType.ofName? word = none ↔
    ∀ type : ColumnType, sameIgnoringCase type.name word = false :=
  find?_sameIgnoringCase_eq_none fun type => by cases type <;> simp [ColumnType.all]

theorem readType_eq_error :
    readType column (field? "type" fields) = .error e ↔ TypeFault column fields e := by
  constructor
  · intro h
    unfold readType at h
    split at h
    · next absent =>
      cases h
      exact .missing absent
    · next null =>
      cases h
      exact .null null
    · next word given =>
      split at h
      · cases h
      · next other =>
        cases h
        exact .unknown given (typeOfName?_eq_none_iff.mp other)
    · next j present other given =>
      cases h
      exact .notText given present other
  · rintro (absent | null | ⟨given, other⟩ | ⟨given, present, other⟩)
    · rw [absent, readType]
    · rw [null, readType]
    · rw [given, readType, typeOfName?_eq_none_iff.mpr other]
    · rw [given, readType]
      · exact present
      · exact other

theorem readSize_of_not_whole
    (h : ∀ size : Nat, size < UInt64.size → field? "size" fields ≠ some (.num (.whole size))) :
    readSize column (field? "size" fields) = .error (.invalidSize column) := by
  cases hread : readSize column (field? "size" fields) with
  | ok size => exact absurd (readSize_eq_ok.mp hread).1 (h size (readSize_eq_ok.mp hread).2)
  | error e =>
    unfold readSize at hread
    split at hread <;> cases hread
    rfl

theorem readSizeOf_eq_error_of_given (given : field? "size" fields = some (.num (.whole size)))
    (word : size < UInt64.size) :
    readSizeOf config column fields = .error e ↔ config.requireSize column size = .error e := by
  rw [readSizeOf, readSize_eq_ok.mpr ⟨given, word⟩, Outcome.ok_bind, Outcome.bind_pure_eq_error]

theorem requireSize_eq_error : config.requireSize column size = .error e ↔
    ¬(config.minSize ≤ size ∧ size ≤ config.maxSize) ∧
      e = .sizeOutOfRange column size config.minSize config.maxSize := by
  rw [Config.requireSize]
  split <;> simp_all [eq_comm]

theorem readSizeOf_eq_error :
    readSizeOf config column fields = .error e ↔ SizeFault config column fields e := by
  constructor
  · intro h
    by_cases hwhole : ∃ size : Nat, field? "size" fields = some (.num (.whole size)) ∧ size < UInt64.size
    · obtain ⟨size, given, word⟩ := hwhole
      rw [readSizeOf_eq_error_of_given given word, requireSize_eq_error] at h
      obtain ⟨outside, rfl⟩ := h
      exact .outside given word outside
    · have other : ∀ size : Nat, size < UInt64.size → field? "size" fields ≠ some (.num (.whole size)) :=
        fun size word given => hwhole ⟨size, given, word⟩
      rw [readSizeOf, readSize_of_not_whole other] at h
      cases h
      exact .notWhole other
  · rintro (other | ⟨given, word, outside⟩)
    · rw [readSizeOf, readSize_of_not_whole other]
      rfl
    · rw [readSizeOf_eq_error_of_given given word, requireSize_eq_error]
      exact ⟨outside, rfl⟩

theorem attributeOfName?_eq_none_iff {label : String} : Attribute.ofName? label = none ↔
    ∀ a : Attribute, sameIgnoringCase a.name label = false :=
  find?_sameIgnoringCase_eq_none fun a => by cases a; simp [Attribute.all]

def readLabel (column : String) : Json → Except SchemaError Attribute
  | .str label =>
    match Attribute.ofName? label with
    | some a => .ok a
    | none => .error (.unknownAttribute column label)
  | _ => .error (.invalidAttributes column)

theorem readAttributeList_eq_mapM {items : List Json} :
    readAttributeList column items = items.mapM (readLabel column) := by
  induction items with
  | nil => rfl
  | cons item items ih =>
    rw [List.mapM_cons, ← ih]
    cases item with
    | str label =>
      rw [readAttributeList, readLabel]
      cases Attribute.ofName? label <;> rfl
    | _ => rfl

theorem readLabel_eq_error {item : Json} : readLabel column item = .error e ↔ LabelFault column item e := by
  constructor
  · intro h
    unfold readLabel at h
    split at h
    · split at h
      · cases h
      · next hnone =>
        cases h
        exact .unknown (attributeOfName?_eq_none_iff.mp hnone)
    · next other =>
      cases h
      exact .notText other
  · rintro (other | other)
    · rw [readLabel]
      exact other
    · rw [readLabel, attributeOfName?_eq_none_iff.mpr other]

theorem readAttributes_eq_error :
    readAttributes column (field? "attributes" fields) = .error e ↔ AttributesFault column fields e := by
  have hlist : ∀ items, readAttributeList column items = .error e ↔
      FirstFault (fun _ => LabelFault column) items e := by
    intro items
    simp only [readAttributeList_eq_mapM, Outcome.mapM_eq_error, readLabel_eq_error]
  constructor
  · intro h
    unfold readAttributes at h
    split at h
    · cases h
    · cases h
    · next items given => exact .label given ((hlist items).mp h)
    · next j present other given =>
      cases h
      exact .notList given present other
  · rintro (⟨given, present, other⟩ | ⟨given, first⟩)
    · rw [given, readAttributes]
      · exact present
      · exact other
    · rw [given, readAttributes]
      exact (hlist _).mpr first

theorem requireNumeric_eq_error : d.requireNumeric = .error e ↔
    d.autoincrement = true ∧ (d.type ≠ .number ∧ d.type ≠ .integer) ∧
      e = .autoincrementNeedsNumber d.name d.type := by
  rw [requireNumeric]
  cases d.autoincrement <;> cases d.type <;> simp [ColumnType.isNumeric, eq_comm]

/-- Columns that count on are of numbers. The type and the attributes that were read are the only ones. -/
theorem columnFault_numeric_iff {type : ColumnType} {attributes : List Attribute}
    (htype : readType column (field? "type" fields) = .ok type)
    (hattributes : readAttributes column (field? "attributes" fields) = .ok attributes) :
    ColumnFault config column fields .numeric e ↔
      (ofParts fields column type size attributes).requireNumeric = .error e := by
  rw [requireNumeric_eq_error, show (ofParts fields column type size attributes).autoincrement =
    attributes.contains .autoincrement from rfl, List.contains_iff_mem]
  constructor
  · rintro (_ | _ | _ | ⟨typed, listed, counting, other⟩)
    obtain rfl := Except.ok.inj (htype.symm.trans (readType_eq_ok.mpr typed))
    obtain rfl := Except.ok.inj (hattributes.symm.trans (readAttributes_eq_ok.mpr listed))
    exact ⟨counting, other, rfl⟩
  · rintro ⟨counting, other, rfl⟩
    exact .numeric (readType_eq_ok.mp htype) (readAttributes_eq_ok.mp hattributes) counting other

/-! ## Definitions -/

theorem partFault_name_iff :
    PartFault config before fields .name e ↔ NameFault config before fields e := by
  refine ⟨fun h => ?_, .name⟩
  cases h with
  | name fault => exact fault
  | behind named fault => cases fault

theorem partFault_iff {part : Part} (named : field? "name" fields = some (.str column))
    (hpart : part ≠ .name) :
    PartFault config before fields part e ↔ ColumnFault config column fields part e := by
  refine ⟨fun h => ?_, .behind named⟩
  cases h with
  | name fault => exact absurd rfl hpart
  | behind named' fault =>
    obtain rfl := Json.str.inj (Option.some.inj (named'.symm.trans named))
    exact fault

theorem ofJson_obj_eq_error (hseen : ∀ name, name ∈ earlier ↔ name ∈ before.filterMap name?) :
    ofJson config before.length earlier (.obj fields) = .error e ↔
      FirstFault (fun _ => PartFault config before fields) Part.all e := by
  rw [ofJson_obj]
  refine Outcome.bind_eq_firstFault (fun e => ?_) (fun name hname e => ?_) e
  · rw [readNameOf_eq_error hseen, partFault_name_iff]
  have named := (readNameOf_eq_ok.mp hname).1.given
  refine Outcome.bind_eq_firstFault (fun e => ?_) (fun type htype e => ?_) e
  · rw [readType_eq_error, partFault_iff named (by simp)]
    exact ⟨.type, fun h => by cases h; assumption⟩
  refine Outcome.bind_eq_firstFault (fun e => ?_) (fun size hsize e => ?_) e
  · rw [readSizeOf_eq_error, partFault_iff named (by simp)]
    exact ⟨.size, fun h => by cases h; assumption⟩
  refine Outcome.bind_eq_firstFault (fun e => ?_) (fun attributes hattributes e => ?_) e
  · rw [readAttributes_eq_error, partFault_iff named (by simp)]
    exact ⟨.attributes, fun h => by cases h; assumption⟩
  refine Outcome.bind_eq_firstFault (fun e => ?_) (fun _ _ e => ?_) e
  · rw [partFault_iff named (by simp), columnFault_numeric_iff htype hattributes]
  · exact iff_of_false (fun h => by cases h) not_firstFault_nil

theorem ofJson_eq_error (hseen : ∀ name, name ∈ earlier ↔ name ∈ before.filterMap name?) {j : Json} :
    ofJson config before.length earlier j = .error e ↔ Fault config before j e := by
  constructor
  · intro h
    cases j with
    | obj fields => exact .part ((ofJson_obj_eq_error hseen).mp h)
    | _ =>
      cases h
      exact .notObject (by simp)
  · rintro (other | first)
    · cases j with
      | obj fields => exact absurd rfl (other fields)
      | _ => rfl
    · exact (ofJson_obj_eq_error hseen).mpr first

theorem name?_of_ofJson {j : Json} (h : ofJson config index earlier j = .ok d) : name? j = some d.name := by
  obtain ⟨⟨fields, rfl, hd⟩, -⟩ := ofJson_eq_ok.mp h
  rw [name?, hd.name.given]

end ColumnDecl

/-! ## Lists of definitions -/

namespace Schema

open ColumnDecl (Fault name?)

variable {config : Config} {items before : List Json} {earlier : List String} {e : SchemaError}

/-- Definitions are refused for the first of them that is at fault. The names seen before them are those that
the definitions before them give. -/
theorem collect_eq_error (before : List Json)
    (hseen : ∀ name, name ∈ earlier ↔ name ∈ before.filterMap name?) :
    collect (ColumnDecl.ofJson config) before.length earlier items = .error e ↔
      FirstFault (fun between => Fault config (before ++ between)) items e := by
  induction items generalizing before earlier e with
  | nil => exact iff_of_false (fun h => by cases h) not_firstFault_nil
  | cons item items ih =>
    refine Outcome.bind_eq_firstFault (fun e => ?_) (fun d hd e => ?_) e
    · rw [ColumnDecl.ofJson_eq_error hseen, List.append_nil]
    · have hnext : ∀ name, name ∈ d.name :: earlier ↔ name ∈ (before ++ [item]).filterMap name? := by
        intro name
        rw [List.filterMap_append, List.mem_append, ← hseen, List.filterMap_cons_some
          (ColumnDecl.name?_of_ofJson hd), List.filterMap_nil, List.mem_singleton, List.mem_cons, or_comm]
      have hrest := ih (e := e) (before ++ [item]) hnext
      simp only [List.length_append, List.length_singleton, List.append_assoc, List.singleton_append] at hrest
      rw [Outcome.bind_pure_eq_error, hrest]

/-- Why a value is not a list of definitions that makes a schema: it is no list, or an empty one, or the first
of its definitions that is at fault. -/
inductive Refused (config : Config) : Json → SchemaError → Prop where
  | notAList {j : Json} (other : ∀ items, j ≠ .arr items) : Refused config j .notAList
  | noColumns : Refused config (.arr []) .noColumns
  | definition {items : List Json} {e : SchemaError} (first : FirstFault (Fault config) items e) :
    Refused config (.arr items) e

theorem ofItems_cons_eq_error {item : Json} :
    ofItems (ColumnDecl.ofJson config) (item :: items) = .error e ↔
      FirstFault (Fault config) (item :: items) e := by
  have hcollect : collect (ColumnDecl.ofJson config) 0 [] (item :: items) = .error e ↔
      FirstFault (Fault config) (item :: items) e := collect_eq_error [] (by simp)
  rw [← hcollect, ofItems, if_neg (by simp)]
  exact Outcome.bind_pure_eq_error

theorem ofJson_eq_error {j : Json} : ofJson config j = .error e ↔ Refused config j e := by
  constructor
  · intro h
    cases j with
    | arr items =>
      cases items with
      | nil =>
        cases h
        exact .noColumns
      | cons item items => exact .definition (ofItems_cons_eq_error.mp h)
    | _ =>
      cases h
      exact .notAList (by simp)
  · rintro (other | _ | first)
    · cases j with
      | arr items => exact absurd rfl (other items)
      | _ => rfl
    · rfl
    · next items =>
      cases items with
      | nil => exact absurd first not_firstFault_nil
      | cons item items => exact ofItems_cons_eq_error.mpr first

/-- A value makes a schema just if it is a list of acceptable definitions, and then the one that they define,
in which a name leads to the column that has it. Any other value is refused for its first fault. -/
theorem definitions_outcomes (config : Config) (j : Json) :
    ((∃ s, ofJson config j = .ok s) ↔ ∃ items, j = .arr items ∧ Acceptable config items) ∧
      (∀ s, ofJson config j = .ok s ↔ ∃ items, j = .arr items ∧ s.DefinedBy config items) ∧
      (∀ s, ofJson config j = .ok s → ∀ name i, s.position? name = some i ↔ s.names[i]? = some name) ∧
      ∀ e, ofJson config j = .error e ↔ Refused config j e := by
  refine ⟨?_, fun s => ofJson_eq_ok, fun s h name i => ?_, fun e => ofJson_eq_error⟩
  · simp only [ofJson_eq_ok, ← exists_definedBy_iff]
    rw [exists_comm]
    simp only [exists_and_left]
  · obtain ⟨items, -, hs⟩ := ofJson_eq_ok.mp h
    exact position?_eq_some_iff hs.distinct

/-- Two definitions make a schema in which the second name is in second place. A third one that takes the first
name again is refused for that, whatever is behind it. -/
theorem definitions_outcomes_ids : ∃ id name : Json,
    id = .obj [("name", .str "id"), ("size", .num (.whole 6)), ("type", .str "Integer")] ∧
    name = .obj [("name", .str "name"), ("size", .num (.whole 32)), ("type", .str "text")] ∧
    (∃ s, ofJson .default (.arr [id, name]) = .ok s ∧ s.position? "name" = some 1) ∧
    Refused .default (.arr [id, name, id, .null]) (.duplicateName "id") := by
  refine ⟨_, _, rfl, rfl, ?_, ?_⟩
  · obtain ⟨-, -, hpositions, -⟩ := definitions_outcomes .default (.arr [
      .obj [("name", .str "id"), ("size", .num (.whole 6)), ("type", .str "Integer")],
      .obj [("name", .str "name"), ("size", .num (.whole 32)), ("type", .str "text")]])
    exact ⟨_, rfl, (hpositions _ rfl "name" 1).mpr rfl⟩
  · obtain ⟨-, -, -, herror⟩ := definitions_outcomes .default (.arr [
      .obj [("name", .str "id"), ("size", .num (.whole 6)), ("type", .str "Integer")],
      .obj [("name", .str "name"), ("size", .num (.whole 32)), ("type", .str "text")],
      .obj [("name", .str "id"), ("size", .num (.whole 6)), ("type", .str "Integer")], .null])
    exact (herror _).mp rfl

end Schema

end TypedTables
