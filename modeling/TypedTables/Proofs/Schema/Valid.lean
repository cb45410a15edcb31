import TypedTables.Proofs.Outcome
import TypedTables.Schema.Check

/-!
# Valid schemas

What the columns of a schema are under a configuration (`Schema.Valid`). A definition passes the rules just
if it is valid and its name is new, and definitions make a schema just if it is valid.
-/

namespace TypedTables

open Text

/-! ## Names -/

def IsLetter (c : Char) : Prop := ('A' ≤ c ∧ c ≤ 'Z') ∨ ('a' ≤ c ∧ c ≤ 'z')

/-- A letter or underscore, then letters, digits and underscores. -/
def IsIdentifier (s : List Char) : Prop :=
  ∃ c cs, s = c :: cs ∧ (IsLetter c ∨ c = '_') ∧
    ∀ d ∈ cs, IsLetter d ∨ ('0' ≤ d ∧ d ≤ '9') ∨ d = '_'

theorem isAlpha_iff {c : Char} : c.isAlpha = true ↔ IsLetter c := by
  delta Char.isAlpha Char.isUpper Char.isLower
  simp only [Bool.or_eq_true, Bool.and_eq_true, decide_eq_true_eq, IsLetter]
  rfl

theorem isIdentifier_iff {s : List Char} : isIdentifier s = true ↔ IsIdentifier s := by
  unfold IsIdentifier
  cases s with
  | nil => simp [isIdentifier]
  | cons c cs =>
    have hchar : ∀ d : Char, isNameChar d = true ↔
        IsLetter d ∨ ('0' ≤ d ∧ d ≤ '9') ∨ d = '_' := by
      intro d
      simp only [isNameChar, Char.isAlphanum, Char.isDigit, Bool.or_eq_true, isAlpha_iff,
        Bool.and_eq_true, decide_eq_true_eq, beq_iff_eq, or_assoc]
      rfl
    simp only [isIdentifier, Bool.and_eq_true, List.all_eq_true, hchar, isNameStart,
      Bool.or_eq_true, isAlpha_iff, beq_iff_eq, List.cons.injEq]
    constructor
    · exact fun h => ⟨c, cs, ⟨rfl, rfl⟩, h⟩
    · rintro ⟨_, _, ⟨rfl, rfl⟩, h⟩
      exact h

/-! ## Columns -/

/-- What a column may be under a configuration. -/
structure ColumnDecl.Valid (config : Config) (d : ColumnDecl) : Prop where
  name : IsIdentifier d.name.toList
  /-- The name is not reserved, in any case of its letters. -/
  free : ∀ r ∈ config.reservedNames, lower r ≠ lower d.name
  size : config.minSize ≤ d.size ∧ d.size ≤ config.maxSize
  numeric : d.autoincrement = true → d.type = .number ∨ d.type = .integer

structure Schema.Valid (config : Config) (s : Schema) : Prop where
  nonempty : s.columns ≠ []
  distinct : s.names.Nodup
  columns : ∀ d ∈ s.columns, d.Valid config

/-! ## Rules -/

variable {config : Config} {d : ColumnDecl} {index : Nat} {earlier : List String}

namespace Config

variable {column name : String} {size : Nat}

theorem isReserved_iff :
    config.isReserved name = true ↔ ∃ r ∈ config.reservedNames, lower r = lower name := by
  simp only [isReserved, List.any_eq_true, sameIgnoringCase, beq_iff_eq]

theorem isReserved_eq_false_iff :
    config.isReserved name = false ↔ ∀ r ∈ config.reservedNames, lower r ≠ lower name := by
  rw [← Bool.not_eq_true, isReserved_iff]
  simp

theorem requireName_eq_ok : config.requireName index earlier name = .ok () ↔
    IsIdentifier name.toList ∧ (∀ r ∈ config.reservedNames, lower r ≠ lower name) ∧
      name ∉ earlier := by
  rw [← isReserved_eq_false_iff, ← isIdentifier_iff, ← List.contains_iff_mem, requireName]
  cases isIdentifier name.toList <;> cases config.isReserved name <;> cases earlier.contains name <;> simp

theorem requireSize_eq_ok :
    config.requireSize column size = .ok () ↔ config.minSize ≤ size ∧ size ≤ config.maxSize := by
  rw [requireSize]
  split
  · next h => exact iff_of_true rfl h
  · next h => exact iff_of_false (fun h => by cases h) h

end Config

theorem ColumnDecl.requireNumeric_eq_ok : d.requireNumeric = .ok () ↔
    (d.autoincrement = true → d.type = .number ∨ d.type = .integer) := by
  rw [requireNumeric]
  cases d.autoincrement <;> cases d.type <;> simp [ColumnType.isNumeric]

theorem ColumnDecl.check_eq_ok {d' : ColumnDecl} : d.check config index earlier = .ok d' ↔
    (d.Valid config ∧ d = d') ∧ d'.name ∉ earlier := by
  constructor
  · intro h
    unfold check at h
    obtain ⟨_, hname, h⟩ := Outcome.bind_eq_ok.mp h
    obtain ⟨_, hsize, h⟩ := Outcome.bind_eq_ok.mp h
    obtain ⟨_, hnumeric, h⟩ := Outcome.bind_eq_ok.mp h
    cases h
    obtain ⟨hid, hfree, hnew⟩ := Config.requireName_eq_ok.mp hname
    have hvalid : d.Valid config :=
      ⟨hid, hfree, Config.requireSize_eq_ok.mp hsize, requireNumeric_eq_ok.mp hnumeric⟩
    exact ⟨⟨hvalid, rfl⟩, hnew⟩
  · rintro ⟨⟨h, rfl⟩, hnew⟩
    rw [check, Config.requireName_eq_ok.mpr ⟨h.name, h.free, hnew⟩, Outcome.ok_bind,
      Config.requireSize_eq_ok.mpr h.size, Outcome.ok_bind, requireNumeric_eq_ok.mpr h.numeric]
    rfl

/-! ## Lists of definitions -/

namespace Schema

section Collect

variable {α : Type} {define : Nat → List String → α → Except SchemaError ColumnDecl}
  {defines : α → ColumnDecl → Prop} {items : List α} {ds : List ColumnDecl} {s : Schema}

/-- The columns that the items define, where their names are different and new. -/
theorem collect_eq_ok
    (hdefine : ∀ {index earlier a d}, define index earlier a = .ok d ↔ defines a d ∧ d.name ∉ earlier) :
    collect define index earlier items = .ok ds ↔
      List.Forall₂ defines items ds ∧ (ds.map ColumnDecl.name).Nodup ∧ ∀ d ∈ ds, d.name ∉ earlier := by
  induction items generalizing index earlier ds with
  | nil =>
    constructor
    · rintro ⟨⟩
      simp
    · rintro ⟨hall, -⟩
      cases hall
      rfl
  | cons item items ih =>
    constructor
    · intro h
      obtain ⟨d, hd, h⟩ := Outcome.bind_eq_ok.mp h
      obtain ⟨rest, hrest, h⟩ := Outcome.bind_eq_ok.mp h
      cases h
      obtain ⟨hdefines, hnew⟩ := hdefine.mp hd
      obtain ⟨hall, hnodup, hfresh⟩ := ih.mp hrest
      refine ⟨.cons hdefines hall, List.nodup_cons.mpr ⟨fun hmem => ?_, hnodup⟩, fun d' hd' => ?_⟩
      · obtain ⟨d', hd', hname⟩ := List.mem_map.mp hmem
        exact hfresh d' hd' (by simp [hname])
      · rcases List.mem_cons.mp hd' with rfl | hd'
        · exact hnew
        · exact fun hmem => hfresh d' hd' (List.mem_cons_of_mem _ hmem)
    · rintro ⟨hall, hnodup, hfresh⟩
      cases hall with
      | @cons _ d _ rest hd hall =>
        obtain ⟨hother, hnodup⟩ := List.nodup_cons.mp hnodup
        have hrest : ∀ d' ∈ rest, d'.name ∉ d.name :: earlier := by
          intro d' hd' hmem
          rcases List.mem_cons.mp hmem with hsame | hmem
          · exact hother (List.mem_map.mpr ⟨d', hd', hsame⟩)
          · exact hfresh d' (List.mem_cons_of_mem _ hd') hmem
        rw [collect, hdefine.mpr ⟨hd, hfresh d (List.mem_cons_self ..)⟩, Outcome.ok_bind,
          ih.mpr ⟨hall, hnodup, hrest⟩]
        rfl

theorem ofItems_eq_ok
    (hdefine : ∀ {index earlier a d}, define index earlier a = .ok d ↔ defines a d ∧ d.name ∉ earlier) :
    ofItems define items = .ok s ↔ items ≠ [] ∧ List.Forall₂ defines items s.columns ∧ s.names.Nodup := by
  have hcollect : ∀ {ds}, collect define 0 [] items = .ok ds ↔ _ := collect_eq_ok hdefine
  constructor
  · intro h
    unfold ofItems at h
    split at h
    · cases h
    · next hitems =>
      obtain ⟨ds, hds, h⟩ := Outcome.bind_eq_ok.mp h
      cases h
      obtain ⟨hall, hnodup, -⟩ := hcollect.mp hds
      exact ⟨fun hnil => hitems (List.isEmpty_iff.mpr hnil), hall, hnodup⟩
  · rintro ⟨hne, hall, hnodup⟩
    have hds := hcollect.mpr ⟨hall, hnodup, by simp⟩
    rw [ofItems, if_neg fun hempty => hne (List.isEmpty_iff.mp hempty), hds]
    rfl

end Collect

/-- The columns of a schema that is made of definitions are the definitions, if these are valid. -/
theorem ofDefs_eq_ok_iff {defs : List ColumnDecl} {s : Schema} :
    ofDefs config defs = .ok s ↔ s.columns = defs ∧ s.Valid config := by
  refine Iff.trans (ofItems_eq_ok ColumnDecl.check_eq_ok) ?_
  rw [List.forall₂_and_left, List.forall₂_eq_eq_eq]
  constructor
  · rintro ⟨hne, ⟨hvalid, rfl⟩, hnodup⟩
    exact ⟨rfl, hne, hnodup, hvalid⟩
  · rintro ⟨rfl, h⟩
    exact ⟨h.nonempty, ⟨h.columns, rfl⟩, h.distinct⟩

/-- The schema comes from definitions that have been checked. -/
def Checked (config : Config) (s : Schema) : Prop :=
  (∃ columns, ofJson config columns = .ok s) ∨ ∃ defs, ofDefs config defs = .ok s

end Schema

end TypedTables
