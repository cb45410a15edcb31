import TypedTables.Proofs.Json.Fields
import TypedTables.Proofs.Query.Faults
import TypedTables.Proofs.Text.ByteOrder
import TypedTables.Table

/-!
# Queries in JSON

Each part of a query has its shapes in JSON (`KeysForm`, `TextsForm`, `LimitForm`, `MethodForm`). An object
whose fields have these shapes is read, and one that renders a query is read as this query, whichever of the
shapes it uses and whether it leaves out what the query does not ask for (`Query.RenderedAs`). Any other
object is refused for the field at fault that comes first.
-/

namespace TypedTables

open Text Json

namespace Query

/-! ## Shapes of the parts -/

/-- The columns to return. -/
inductive KeysForm : Option (List String) → Json → Prop where
  | null : KeysForm none .null
  | list (ss : List String) : KeysForm (some ss) (.arr (ss.map .str))

/-- Order entries, or conditions and join words. One of them alone needs no list. -/
inductive TextsForm : List String → Json → Prop where
  | null : TextsForm [] .null
  | one (s : String) : TextsForm [s] (.str s)
  | list (ss : List String) : TextsForm ss (.arr (ss.map .str))

inductive LimitForm : Option Int64 → Json → Prop where
  | null : LimitForm none .null
  | whole (i : Int64) : LimitForm (some i) (.num (.whole i.toInt))

inductive MethodForm : Option String → Json → Prop where
  | null : MethodForm none .null
  | text (s : String) : MethodForm (some s) (.str s)

variable {j : Json} {e : QueryError} {ss : List String}

theorem texts?_eq_some {items : List Json} : texts? items = some ss ↔ items = ss.map .str := by
  have htext : ∀ {j : Json} {s : String}, j.toText? = some s ↔ j = .str s := by
    intro j s
    cases j <;> simp [toText?]
  rw [texts?, Outcome.mapM_eq_some, ← List.forall₂_eq_eq_eq, List.forall₂_map_right_iff]
  simp only [htext]

theorem readTexts?_eq_some : readTexts? j = some ss ↔ TextsForm ss j := by
  constructor
  · intro h
    unfold readTexts? at h
    split at h
    · cases h
      exact .null
    · cases h
      exact .one _
    · rw [texts?_eq_some.mp h]
      exact .list ss
    · cases h
  · rintro (_ | s | ss)
    · rfl
    · rfl
    · exact texts?_eq_some.mpr rfl

theorem orInvalid_eq_ok {argument : QueryArgument} :
    orInvalid argument (readTexts? j) = .ok ss ↔ TextsForm ss j := by
  rw [← readTexts?_eq_some]
  cases readTexts? j <;> simp [orInvalid]

theorem readKeys_eq_ok {keys : Option (List String)} : readKeys j = .ok keys ↔ KeysForm keys j := by
  constructor
  · intro h
    unfold readKeys at h
    split at h
    · cases h
      exact .null
    · next items =>
      cases hitems : texts? items with
      | none =>
        rw [hitems] at h
        cases h
      | some ss =>
        rw [hitems] at h
        cases h
        rw [texts?_eq_some.mp hitems]
        exact .list ss
    · cases h
  · rintro (_ | ss)
    · rfl
    · rw [readKeys, texts?_eq_some.mpr rfl]
      rfl

theorem toSigned?_eq_some {n : Json.Number} {i : Int64} :
    n.toSigned? = some i ↔ n = .whole i.toInt := by
  constructor
  · intro h
    cases n with
    | real x => cases h
    | whole n =>
      rw [Number.toSigned?, Option.ite_none_right_eq_some] at h
      obtain ⟨hrange, hi⟩ := h
      cases hi
      have hmin : Int64.minValue.toInt = -2 ^ 63 := rfl
      have hmax : Int64.maxValue.toInt = 2 ^ 63 - 1 := rfl
      rw [Int64.toInt_ofInt_of_le (by omega) (by omega)]
  · rintro rfl
    rw [Number.toSigned?, if_pos ⟨i.minValue_le_toInt, i.toInt_le⟩, Int64.ofInt_toInt]

theorem readLimit_eq_ok {limit : Option Int64} : Query.readLimit j = .ok limit ↔ LimitForm limit j := by
  constructor
  · intro h
    unfold Query.readLimit at h
    split at h
    · cases h
      exact .null
    · split at h
      · next hsigned =>
        cases h
        rw [toSigned?_eq_some.mp hsigned]
        exact .whole _
      · cases h
    · cases h
  · rintro (_ | i)
    · rfl
    · rw [Query.readLimit, toSigned?_eq_some.mpr rfl]

theorem readMethod_eq_ok {method : Option String} : readMethod j = .ok method ↔ MethodForm method j := by
  constructor
  · intro h
    unfold readMethod at h
    split at h
    · cases h
      exact .null
    · cases h
      exact .text _
    · cases h
  · rintro (_ | s) <;> rfl

/-! ## Complaints about the parts -/

theorem orInvalid_eq_error {argument : QueryArgument} :
    orInvalid argument (readTexts? j) = .error e ↔ (∀ ss, ¬TextsForm ss j) ∧ e = .invalidShape argument := by
  refine Outcome.eq_error_iff orInvalid_eq_ok fun h => ?_
  cases htexts : readTexts? j <;> rw [htexts] at h <;> cases h
  rfl

theorem readKeys_eq_error :
    readKeys j = .error e ↔ (∀ keys, ¬KeysForm keys j) ∧ e = .invalidShape .keys := by
  refine Outcome.eq_error_iff readKeys_eq_ok fun h => ?_
  unfold readKeys at h
  split at h
  · cases h
  · rw [Outcome.map_eq_error] at h
    unfold orInvalid at h
    split at h <;> cases h
    rfl
  · cases h
    rfl

theorem readLimit_eq_error : Query.readLimit j = .error e ↔
    (∀ limit, ¬LimitForm limit j) ∧ e = .invalidLimit (toString j) := by
  refine Outcome.eq_error_iff readLimit_eq_ok fun h => ?_
  unfold Query.readLimit at h
  split at h
  · cases h
  · split at h <;> cases h
    rfl
  · cases h
    rfl

theorem readMethod_eq_error :
    readMethod j = .error e ↔ (∀ method, ¬MethodForm method j) ∧ e = .invalidShape .method := by
  refine Outcome.eq_error_iff readMethod_eq_ok fun h => ?_
  unfold readMethod at h
  split at h <;> cases h
  rfl

/-! ## Fields -/

def Part.field : Part → String
  | keys => "keys"
  | order => "order"
  | clause => "where"
  | limit => "limit"
  | method => "method"

def Part.Form (j : Json) : Part → Prop
  | keys => ∃ keys, KeysForm keys j
  | order | clause => ∃ ss, TextsForm ss j
  | limit => ∃ limit, LimitForm limit j
  | method => ∃ method, MethodForm method j

def Part.complaint (j : Json) : Part → QueryError
  | keys => .invalidShape .keys
  | order => .invalidShape .order
  | clause => .invalidShape .clause
  | limit => .invalidLimit (toString j)
  | method => .invalidShape .method

/-- The field gives a part in one of its shapes. -/
def FieldForm (name : String) (j : Json) : Prop := ∃ part : Part, name = part.field ∧ part.Form j

inductive FieldFault (name : String) (j : Json) : QueryError → Prop where
  | unknown (other : ∀ part : Part, name ≠ part.field) : FieldFault name j (.invalidShape .fields)
  | shape {part : Part} (named : name = part.field) (other : ¬part.Form j) :
    FieldFault name j (part.complaint j)

variable {q : Query} {name : String}

theorem setField_keys : q.setField "keys" j = (readKeys j).map fun keys => { q with keys } := by
  rw [setField]
  cases readKeys j <;> rfl

theorem setField_order : q.setField "order" j =
    (orInvalid .order (readTexts? j)).map fun order => { q with order } := by
  rw [setField]
  cases orInvalid .order (readTexts? j) <;> rfl

theorem setField_clause : q.setField "where" j =
    (orInvalid .clause (readTexts? j)).map fun clause => { q with clause } := by
  rw [setField]
  cases orInvalid .clause (readTexts? j) <;> rfl

theorem setField_limit : q.setField "limit" j = (readLimit j).map fun limit => { q with limit } := by
  rw [setField]
  cases readLimit j <;> rfl

theorem setField_method : q.setField "method" j = (readMethod j).map fun method => { q with method } := by
  rw [setField]
  cases readMethod j <;> rfl

theorem setField_unknown (h : ∀ part : Part, name ≠ part.field) :
    q.setField name j = .error (.invalidShape .fields) := by
  unfold setField
  split
  · exact absurd rfl (h .keys)
  · exact absurd rfl (h .order)
  · exact absurd rfl (h .clause)
  · exact absurd rfl (h .limit)
  · exact absurd rfl (h .method)
  · rfl

theorem setField_field (part : Part) :
    q.setField part.field j = .error e ↔ ¬part.Form j ∧ e = part.complaint j := by
  cases part <;>
    simp only [Part.field, setField_keys, setField_order, setField_clause, setField_limit, setField_method,
      Outcome.map_eq_error, readKeys_eq_error, orInvalid_eq_error, readLimit_eq_error,
      readMethod_eq_error, Part.Form, Part.complaint, not_exists]

theorem Part.eq_of_field_eq {part part' : Part} (h : part.field = part'.field) : part = part' := by
  cases part <;> cases part' <;> first | rfl | exact absurd h (by decide)

/-- A field is refused for what is wrong with it, whatever has been read before. -/
theorem setField_eq_error : q.setField name j = .error e ↔ FieldFault name j e := by
  by_cases hname : ∃ part : Part, name = part.field
  · obtain ⟨part, rfl⟩ := hname
    rw [setField_field]
    constructor
    · rintro ⟨hform, rfl⟩
      exact .shape rfl hform
    · rintro (other | ⟨named, other⟩)
      · exact absurd rfl (other part)
      · cases Part.eq_of_field_eq named
        exact ⟨other, rfl⟩
  · have hname : ∀ part : Part, name ≠ part.field := not_exists.mp hname
    rw [setField_unknown hname]
    constructor
    · rintro ⟨⟩
      exact .unknown hname
    · rintro (_ | ⟨named, -⟩)
      · rfl
      · exact absurd named (hname _)

theorem forall_not_fieldFault : (∀ e, ¬FieldFault name j e) ↔ FieldForm name j := by
  constructor
  · intro h
    by_cases hname : ∃ part : Part, name = part.field
    · obtain ⟨part, hpart⟩ := hname
      exact ⟨part, hpart, by_contra fun hform => h _ (.shape hpart hform)⟩
    · exact absurd (.unknown (not_exists.mp hname)) (h _)
  · rintro ⟨part, rfl, hform⟩ e (other | ⟨named, other⟩)
    · exact other part rfl
    · cases Part.eq_of_field_eq named
      exact other hform

/-! ## Objects -/

def setFields (q : Query) (fields : List (String × Json)) : Except QueryError Query :=
  fields.foldlM (fun q f => q.setField f.1 f.2) q

theorem ofJson_obj (fields : List (String × Json)) : ofJson (.obj fields) = setFields {} fields := rfl

variable {fields : List (String × Json)}

theorem setFields_eq_error :
    q.setFields fields = .error e ↔ FirstFault (fun _ f => FieldFault f.1 f.2) fields e :=
  Outcome.foldlM_eq_error fun _ _ _ => setField_eq_error

theorem exists_setFields_iff :
    (∃ q', q.setFields fields = .ok q') ↔ ∀ f ∈ fields, FieldForm f.1 f.2 := by
  simp only [Outcome.exists_ok_iff, ne_eq, setFields_eq_error, forall_not_firstFault,
    forall_not_fieldFault]
  constructor
  · intro h f hf
    obtain ⟨before, after, hsplit⟩ := List.append_of_mem hf
    exact h before f after hsplit
  · intro h before f after hsplit
    exact h f (by simp [hsplit])

theorem firstFault_iff_least (h : Ordered fields) :
    FirstFault (fun _ f => FieldFault f.1 f.2) fields e ↔ ∃ f ∈ fields, FieldFault f.1 f.2 e ∧
      ∀ g ∈ fields, utf8Bytes g.1 < utf8Bytes f.1 → ∀ e', ¬FieldFault g.1 g.2 e' := by
  constructor
  · rintro ⟨before, f, after, rfl, hfault, hfirst⟩
    refine ⟨f, by simp, hfault, fun g hg hlt => ?_⟩
    rcases List.mem_append.mp hg with hg | hg
    · obtain ⟨front, rest, hsplit⟩ := List.append_of_mem hg
      exact hfirst front g rest hsplit
    · have hname := utf8Bytes_lt_iff.mp hlt
      rcases List.mem_cons.mp hg with rfl | hg
      · exact absurd hname (String.lt_irrefl _)
      · have hlater := (List.pairwise_cons.mp (List.pairwise_append.mp h).2.1).1 g hg
        exact absurd (String.lt_trans hname hlater) (String.lt_irrefl _)
  · rintro ⟨f, hf, hfault, hleast⟩
    obtain ⟨before, after, rfl⟩ := List.append_of_mem hf
    refine ⟨before, f, after, rfl, hfault, fun front g rest hsplit => ?_⟩
    have hg : g ∈ before := by simp [hsplit]
    refine hleast g (List.mem_append_left _ hg) (utf8Bytes_lt_iff.mpr ?_)
    exact (List.pairwise_append.mp h).2.2 g hg f (List.mem_cons_self ..)

/-! ## Renderings -/

/-- A part of a query is given in one of its shapes. It can be left out where nothing is asked for. -/
inductive Given {α : Type} (form : α → Json → Prop) (nothing : α) : α → Option Json → Prop where
  | leftOut : Given form nothing nothing none
  | field {a : α} {j : Json} (hform : form a j) : Given form nothing a (some j)

def present (fields : List (String × Option Json)) : List (String × Json) :=
  fields.filterMap fun f => f.2.map (f.1, ·)

/-- The JSON objects that say what the query says. -/
inductive RenderedAs (q : Query) : Json → Prop where
  | object {keys limit method order clause : Option Json}
    (hkeys : Given KeysForm none q.keys keys) (hlimit : Given LimitForm none q.limit limit)
    (hmethod : Given MethodForm none q.method method) (horder : Given TextsForm [] q.order order)
    (hclause : Given TextsForm [] q.clause clause) :
    RenderedAs q (.obj (present [("keys", keys), ("limit", limit), ("method", method),
      ("order", order), ("where", clause)]))

/-- Taking the field of a part, or none where the part is left out, puts what is given into the query. -/
theorem setFields_present {α : Type} {form : α → Json → Prop} {nothing a : α} {o : Option Json}
    (h : Given form nothing a o) (set : α → Query) {name : String}
    (hset : ∀ {a j}, form a j → (set nothing).setField name j = .ok (set a))
    (rest : List (String × Option Json)) :
    (set nothing).setFields (present ((name, o) :: rest)) = (set a).setFields (present rest) := by
  cases h with
  | leftOut => rfl
  | @field a j hform =>
    have hpresent : present ((name, some j) :: rest) = (name, j) :: present rest := rfl
    rw [hpresent, setFields, List.foldlM_cons, hset hform]
    rfl

theorem RenderedAs.ofJson_eq (h : q.RenderedAs j) : ofJson j = .ok q := by
  cases h with
  | object hkeys hlimit hmethod horder hclause =>
    rw [ofJson_obj, setFields_present hkeys fun keys => { keys },
      setFields_present hlimit fun limit => { keys := q.keys, limit },
      setFields_present hmethod fun method => { keys := q.keys, limit := q.limit, method },
      setFields_present horder fun order =>
        { keys := q.keys, limit := q.limit, method := q.method, order },
      setFields_present hclause fun clause =>
        { keys := q.keys, limit := q.limit, method := q.method, order := q.order, clause }]
    · rfl
    · intro a j hform
      rw [setField_clause, orInvalid_eq_ok.mpr hform]
      rfl
    · intro a j hform
      rw [setField_order, orInvalid_eq_ok.mpr hform]
      rfl
    · intro a j hform
      rw [setField_method, readMethod_eq_ok.mpr hform]
      rfl
    · intro a j hform
      rw [setField_limit, readLimit_eq_ok.mpr hform]
      rfl
    · intro a j hform
      rw [setField_keys, readKeys_eq_ok.mpr hform]
      rfl

/-! ## What is read and what is refused -/

/-- The JSON values that describe a query. -/
inductive Accepted : Json → Prop where
  | null : Accepted .null
  | object {fields : List (String × Json)} (forms : ∀ f ∈ fields, FieldForm f.1 f.2) :
    Accepted (.obj fields)

/-- Why a JSON value describes no query: it is no object, or the field is at fault and those whose names
come before its name are not. -/
inductive Misshapen : Json → QueryError → Prop where
  | query {j : Json} (notNull : j ≠ .null) (notObject : ∀ fields, j ≠ .obj fields) :
    Misshapen j (.invalidShape .query)
  | field {fields : List (String × Json)} {f : String × Json} {e : QueryError} (mem : f ∈ fields)
    (fault : FieldFault f.1 f.2 e)
    (first : ∀ g ∈ fields, utf8Bytes g.1 < utf8Bytes f.1 → FieldForm g.1 g.2) :
    Misshapen (.obj fields) e

theorem ofJson_other (hnull : j ≠ .null) (hobj : ∀ fields, j ≠ .obj fields) :
    ofJson j = .error (.invalidShape .query) := by
  cases j with
  | null => exact absurd rfl hnull
  | obj fields => exact absurd rfl (hobj fields)
  | _ => rfl

theorem exists_ofJson_iff : (∃ q, ofJson j = .ok q) ↔ Accepted j := by
  constructor
  · rintro ⟨q, hq⟩
    by_cases hnull : j = .null
    · rw [hnull]
      exact .null
    · by_cases hobj : ∃ fields, j = .obj fields
      · obtain ⟨fields, rfl⟩ := hobj
        exact .object (exists_setFields_iff.mp ⟨q, hq⟩)
      · rw [ofJson_other hnull (not_exists.mp hobj)] at hq
        cases hq
  · rintro (_ | forms)
    · exact ⟨{}, rfl⟩
    · exact exists_setFields_iff.mpr forms

theorem ofJson_eq_error (hj : ∀ fields, j = .obj fields → Ordered fields) :
    ofJson j = .error e ↔ Misshapen j e := by
  by_cases hobj : ∃ fields, j = .obj fields
  · obtain ⟨fields, rfl⟩ := hobj
    rw [ofJson_obj, setFields_eq_error, firstFault_iff_least (hj fields rfl)]
    simp only [forall_not_fieldFault]
    constructor
    · rintro ⟨f, hf, hfault, hfirst⟩
      exact .field hf hfault hfirst
    · rintro (⟨-, notObject⟩ | ⟨mem, fault, first⟩)
      · exact absurd rfl (notObject fields)
      · exact ⟨_, mem, fault, first⟩
  · have hobj : ∀ fields, j ≠ .obj fields := not_exists.mp hobj
    constructor
    · intro h
      have hnull : j ≠ .null := by
        rintro rfl
        cases h
      rw [ofJson_other hnull hobj] at h
      cases h
      exact .query hnull hobj
    · rintro (⟨notNull, notObject⟩ | _)
      · exact ofJson_other notNull notObject
      · exact absurd rfl (hobj _)

/-- A rendering of a query is read as the query, and a table answers both alike. A value is read if it is
null or an object of which every field has its shape; other objects, whose fields are in the order of their
names, as those of every text are, are refused for the first field that has not. -/
theorem ofJson_readings (j : Json) :
    (∀ q, RenderedAs q j → ofJson j = .ok q ∧ ∀ t : Table, t.getJson j = t.get q) ∧
      ((∃ q, ofJson j = .ok q) ↔ Accepted j) ∧
      ((∀ fields, j = .obj fields → Ordered fields) → ∀ e, ofJson j = .error e ↔ Misshapen j e) ∧
      (∀ text, Json.read? text = some j → ∀ e, ofJson j = .error e ↔ Misshapen j e) := by
  refine ⟨fun q h => ⟨h.ofJson_eq, fun t => ?_⟩, exists_ofJson_iff, fun hj e => ofJson_eq_error hj,
    fun text hread e => ofJson_eq_error fun fields hobj => ?_⟩
  · rw [Table.getJson, h.ofJson_eq]
    rfl
  · rw [hobj] at hread
    exact ordered_of_read? hread

/-- A rendering with a bare order entry and a null, and an object in which two fields are at fault. -/
theorem ofJson_readings_people :
    let j : Json := .obj [("keys", .arr [.str "name"]), ("limit", .num (.whole 3)),
      ("order", .str "age:DESC"), ("where", .null)]
    let q : Query := { keys := some ["name"], order := ["age:DESC"], limit := some 3 }
    let faulty : Json := .obj [("limit", .str "3"), ("order", .num (.whole 1))]
    (RenderedAs q j ∧ ofJson j = .ok q ∧ ∀ t : Table, t.getJson j = t.get q) ∧
      (∀ fields, faulty = .obj fields → Ordered fields) ∧ ¬Accepted faulty ∧
      Misshapen faulty (.invalidLimit "\"3\"") := by
  intro j q faulty
  have hrendered : RenderedAs q j :=
    @RenderedAs.object q (some (.arr [.str "name"])) (some (.num (.whole 3))) none
      (some (.str "age:DESC")) (some .null) (.field (.list ["name"])) (.field (.whole 3)) .leftOut
      (.field (.one "age:DESC")) (.field .null)
  have hordered : ∀ fields, faulty = .obj fields → Ordered fields := by
    intro fields hfields
    rw [← Json.obj.inj hfields]
    exact List.pairwise_pair.mpr (by decide)
  have hread : ofJson faulty = .error (.invalidLimit "\"3\"") := by rfl
  refine ⟨⟨hrendered, (ofJson_readings j).1 q hrendered⟩, hordered, fun h => ?_,
    ((ofJson_readings faulty).2.2.1 hordered _).mp hread⟩
  obtain ⟨q', hq'⟩ := (ofJson_readings faulty).2.1.mpr h
  rw [hread] at hq'
  cases hq'

end Query

end TypedTables
