import TypedTables.Proofs.Condition.Trimmed
import TypedTables.Proofs.Query.Unmentioned
import TypedTables.Proofs.Row.Shapes

/-!
# Names lead to their columns

A checked name is all letters, digits and underscores, so it ends where a blank, a colon or a comparator
begins, and no blank is at its ends. Whatever it is, it leads to its column among the columns to return,
in an order entry, in a row by name and in a condition (`Schema.Reaches`). Before a comparator it is no
join word either.
-/

namespace TypedTables

open Text Json

/-! ## Parts with blanks around them -/

namespace Text

/-- The parts one after the other, with white space before, between and behind them or not. -/
inductive Spaced : List (List Char) → List Char → Prop where
  | nil {b : List Char} (blank : AllBlank b) : Spaced [] b
  | cons {b part s : List Char} {parts : List (List Char)} (blank : AllBlank b)
    (rest : Spaced parts s) : Spaced (part :: parts) (b ++ (part ++ s))

variable {name s : List Char}

theorem bare_of_forall (h : ∀ c ∈ name, isNameChar c = true) : Bare name :=
  bare_of_isBlank_eq fun c hc => isBlank_of_isNameChar (h c hc)

theorem forall_of_isIdentifier (h : IsIdentifier name) : ∀ c ∈ name, isNameChar c = true := by
  obtain ⟨_, _, -, -, hall⟩ := WrittenCondition.isNameChar_of_isIdentifier h
  exact hall

theorem Spaced.trimmed_eq (h : Spaced [name] s) (hname : ∀ c ∈ name, isNameChar c = true) :
    trimmed s = String.ofList name := by
  cases h with
  | cons hfront hback =>
    cases hback with
    | nil hback => rw [trimmed, trim_append hfront hback (bare_of_forall hname)]

theorem Spaced.colon_not_mem (h : Spaced [name] s) (hname : ∀ c ∈ name, isNameChar c = true) :
    ':' ∉ s := by
  have hblank : ∀ {b : List Char}, AllBlank b → ':' ∉ b := fun hb hmem =>
    absurd (hb _ hmem) (by decide +kernel)
  cases h with
  | cons hfront hback =>
    cases hback with
    | nil hback =>
      simp only [List.mem_append, not_or]
      exact ⟨hblank hfront, fun hmem => absurd (hname _ hmem) (by decide), hblank hback⟩

/-- The middle part divides the others, which have no blanks between them and it but their own. -/
theorem Spaced.exists_divided {word : List Char} (h : Spaced [name, [':'], word] s) :
    ∃ front back, s = front ++ ':' :: back ∧ Spaced [name] front ∧ Spaced [word] back := by
  cases h with
  | @cons b₀ _ _ _ hb₀ h =>
    cases h with
    | @cons b₁ _ t _ hb₁ h =>
      exact ⟨b₀ ++ (name ++ b₁), t, by simp, .cons hb₀ (.nil hb₁), h⟩

end Text

/-! ## Order entries -/

/-- An entry that sorts by the name: the name alone, or before a colon and the word for a direction, in
any case of its letters. -/
inductive OrderEntry (name : String) : Direction → String → Prop where
  | plain {entry : String} (spaced : Spaced [name.toList] entry.toList) :
    OrderEntry name .ascending entry
  | directed {d : Direction} {word entry : String} (same : sameIgnoringCase d.word word = true)
    (spaced : Spaced [name.toList, [':'], word.toList] entry.toList) : OrderEntry name d entry

theorem OrderEntry.writtenAs {name entry : String} {d : Direction} (h : OrderEntry name d entry)
    (hname : ∀ c ∈ name.toList, isNameChar c = true) : SortKey.WrittenAs entry ⟨name, d⟩ := by
  cases h with
  | plain hspaced =>
    have hplain := SortKey.WrittenAs.plain (hspaced.colon_not_mem hname)
    rwa [hspaced.trimmed_eq hname, String.ofList_toList] at hplain
  | @directed _ word _ hsame hspaced =>
    obtain ⟨front, back, hentry, hfront, hback⟩ := hspaced.exists_divided
    have hword : ∀ c ∈ word.toList, isNameChar c = true :=
      WrittenCondition.isNameChar_of_sameIgnoringCase (by cases d <;> rfl) hsame
    have hdirected := SortKey.WrittenAs.directed hentry (hfront.colon_not_mem hname)
      (by rwa [hback.trimmed_eq hword, String.ofList_toList])
    rwa [hfront.trimmed_eq hname, String.ofList_toList] at hdirected

namespace Query.Plan

variable {s : Schema} {i : Nat}

theorem ofWord?_of_sameIgnoringCase {d : Direction} {word : String}
    (h : sameIgnoringCase d.word word = true) : Direction.ofWord? word = some d :=
  find?_of_sameIgnoringCase (Direction.ofWord?_word d) h

theorem readOrderEntry_eq_map {entry : String} {key : SortKey} (h : SortKey.WrittenAs entry key) :
    readOrderEntry s entry = (locate s key.name).map (·, key.direction) := by
  have hrun : ∀ {name : List Char}, ':' ∉ name → ∀ c ∈ name, (c != ':') = true := fun hname c hc =>
    bne_iff_ne.mpr fun heq => hname (heq ▸ hc)
  cases h with
  | plain hname =>
    have hall := hrun hname
    rw [readOrderEntry, List.takeWhile_eq_self_iff.mpr hall, List.dropWhile_eq_nil_iff.mpr hall]
    rfl
  | @directed name word d hentry hname hword =>
    have hall := hrun hname
    have hstop : Stops (· != ':') (':' :: word) := stops_cons.mpr (by decide)
    rw [readOrderEntry, hentry, takeWhile_run hall hstop, dropWhile_run hall hstop]
    simp only [ofWord?_of_sameIgnoringCase hword]
    rfl

theorem readOrderEntry_of_writtenAs {entry : String} {key : SortKey}
    (h : SortKey.WrittenAs entry key) (hi : s.position? key.name = some i) :
    readOrderEntry s entry = .ok (i, key.direction) := by
  rw [readOrderEntry_eq_map h, locate, hi]
  rfl

theorem readProjection_of_position? {name : String} (hi : s.position? name = some i) :
    readProjection s (some [name]) = .ok (some [i]) := by
  simp only [readProjection, locateAll, locate, hi, Outcome.ok_bind]
  rfl

theorem ofQuery_keys {name : String} (hi : s.position? name = some i) (q : Query) :
    ofQuery s { q with keys := some [name] } =
      (ofQuery s { q with keys := none }).map ({ · with projection := some [i] }) := by
  have hnone : readProjection s none = .ok none := rfl
  simp only [ofQuery, readProjection_of_position? hi, hnone, Outcome.ok_bind]
  cases q.order.mapM (readOrderEntry s) with
  | error e => rfl
  | ok order =>
    cases readClause s q.clause with
    | error e => rfl
    | ok clause =>
      cases readLimit q.limit with
      | error e => rfl
      | ok limit =>
        cases readReduction q.method with
        | error e => rfl
        | ok reduction =>
          simp only [Outcome.ok_bind]
          split <;> rfl

theorem order_getElem? {q : Query} {plan : Plan} {k : Nat} {entry : String}
    {column : Nat × Direction} (h : ofQuery s q = .ok plan) (hk : q.order[k]? = some entry)
    (hentry : readOrderEntry s entry = .ok column) : plan.order[k]? = some column := by
  have horder := Outcome.mapM_eq_ok.mp (ofQuery_eq_ok h).order
  obtain ⟨hlt, rfl⟩ := List.getElem?_eq_some_iff.mp hk
  have hlt' : k < plan.order.length := horder.length_eq ▸ hlt
  have hread : readOrderEntry s q.order[k] = .ok plan.order[k] :=
    (List.forall₂_iff_get.mp horder).2 k hlt hlt'
  rw [hread] at hentry
  cases hentry
  exact List.getElem?_eq_getElem hlt'

/-- A query with one name, one order entry and one condition is planned part by part. -/
theorem ofQuery_parts {name entry text : String} {column : Nat × Direction} {clause : WhereClause}
    (hi : s.position? name = some i) (hentry : readOrderEntry s entry = .ok column)
    (hclause : WhereClause.read s [text] = .ok clause) :
    ofQuery s { keys := some [name], order := [entry], clause := [text] } =
      .ok ⟨some [i], [column], clause, none, none⟩ := by
  simp only [ofQuery, readProjection_of_position? hi, List.mapM_cons, hentry, readClause, hclause,
    Outcome.ok_bind]
  rfl

end Query.Plan

/-! ## Rows by name -/

namespace RowInput

variable {s : Schema} {fields : List (String × Json)} {slots : List (Option Json)} {raw : Json}
  {i : Nat} {d : ColumnDecl}

/-- The value of a field goes to the slot of this column. -/
structure Fills (s : Schema) (d : ColumnDecl) (i : Nat) (fields : List (String × Json))
    (raw : Json) : Prop where
  /-- Only a name that no column has is refused before the values are looked at. -/
  refused : ∀ e, (named fields).supplied s = .error e →
    ∃ f ∈ fields, f.1 ∉ s.names ∧ e = .unknownKey f.1
  /-- Null is left out. -/
  slot : ∀ slots, (named fields).supplied s = .ok slots →
    slots[i]? = some ((some raw).filter (!·.isNull))
  /-- The row has there what the value is read as. -/
  stored : ∀ formats columns row, columns.length = s.columns.length → raw.isNull = false →
    (named fields).encode formats s columns = .ok row →
    ∃ v, d.readRaw formats raw = .ok v ∧ row[i]? = some v

theorem known_of_supplied (h : (named fields).supplied s = .ok slots) :
    ∀ f ∈ fields, f.1 ∈ s.names := by
  rcases known_or_exists_unknown s fields with hknown | ⟨_, _, _, _, rfl, hfront, hkey⟩
  · exact hknown
  · rw [supplied_unknown hfront hkey] at h
    cases h

theorem supplied_getElem? (hd : s.columns[i]? = some d) (hfields : Ordered fields)
    (hmem : (d.name, raw) ∈ fields) (h : (named fields).supplied s = .ok slots) :
    slots[i]? = some ((some raw).filter (!·.isNull)) := by
  rw [supplied_named (known_of_supplied h)] at h
  cases h
  rw [slotsOf, List.map_map, List.getElem?_map, hd]
  simp only [Option.map_some, Function.comp_apply, field?_of_mem hfields hmem]

theorem supplied_singleton (hs : s.names.Nodup) (hd : s.columns[i]? = some d) (raw : Json) :
    (named [(d.name, raw)]).supplied s =
      .ok ((List.replicate s.size none).set i ((some raw).filter (!·.isNull))) := by
  rw [supplied_eq_fill hs (List.pairwise_singleton _ _), fill, List.foldlM_cons, fillSlot,
    Schema.position?_name hs hd]
  simp [Except.map, pure, Except.pure, List.map_set]

theorem encode_getElem? {config : Config} {formats : Formats Pattern} {columns : List Column}
    {row : Row} (hs : s.Valid config) (hcolumns : columns.length = s.columns.length)
    (hd : s.columns[i]? = some d) (hfields : Ordered fields) (hmem : (d.name, raw) ∈ fields)
    (hraw : raw.isNull = false) (h : (named fields).encode formats s columns = .ok row) :
    ∃ v, d.readRaw formats raw = .ok v ∧ row[i]? = some v := by
  have hlength := (encode_eq_ok hs hcolumns h).length_eq
  obtain ⟨slots, hslots, h⟩ := Outcome.bind_eq_ok.mp h
  have hslot := supplied_getElem? hd hfields hmem hslots
  obtain ⟨hi, -⟩ := List.getElem?_eq_some_iff.mp hd
  have hv : row[i]? = some row[i] := List.getElem?_eq_getElem (by omega)
  obtain ⟨c, raw', -, hraw', hencode⟩ := encodeSlots_getElem? h hd hv
  obtain ⟨hvalue, -⟩ := ColumnDecl.encodeSlot_eq_ok.mp hencode
  have hsome : raw' = some raw := by
    rw [hslot, Option.filter_some, hraw] at hraw'
    exact (Option.some.inj hraw').symm
  rw [hsome] at hvalue
  exact ⟨_, hvalue, hv⟩

theorem refused_of_supplied {e : RowError} (h : (named fields).supplied s = .error e) :
    ∃ f ∈ fields, f.1 ∉ s.names ∧ e = .unknownKey f.1 := by
  rcases known_or_exists_unknown s fields with hknown | ⟨_, key, raw, _, rfl, hfront, hkey⟩
  · rw [supplied_named hknown] at h
    cases h
  · rw [supplied_unknown hfront hkey] at h
    cases h
    exact ⟨(key, raw), by simp, hkey, rfl⟩

end RowInput

/-! ## Conditions -/

/-- The text writes the condition, by itself and wherever it stands in a clause, where it is no join
word. -/
structure Condition.WrittenBy (s : Schema) (text : String) (c : Condition) : Prop where
  read : Condition.read s text = .ok c
  other : JoinWord.ofWord? (trimmed text.toList) = none
  item : ∀ p, PartialClause.item s p text = p.condition c
  clause : WhereClause.read s [text] = .ok ⟨[c], [], []⟩

theorem Condition.writtenBy_of_read {s : Schema} {text : String} {c : Condition}
    (h : Condition.read s text = .ok c) : WrittenBy s text c := by
  have hother : JoinWord.ofWord? (trimmed text.toList) = none := by
    rw [Option.eq_none_iff_forall_ne_some]
    intro j hj
    rw [read_of_ofWord? hj] at h
    cases h
  refine ⟨h, hother, fun p => ?_, clause_of_read h⟩
  rw [PartialClause.item, hother, read_trimmed, h]
  rfl

theorem Condition.read_of_spaced {s : Schema} {name text : String} {i : Nat} {comparator : Comparator}
    {literal : Literal} {lit : List Char} (hname : IsIdentifier name.toList)
    (hi : s.position? name = some i) (hliteral : literal.Writes lit)
    (h : Spaced [name.toList, comparator.symbol.toList, lit] text.toList) :
    Condition.read s text = .ok ⟨name, i, comparator, literal⟩ := by
  have hwrites : WrittenCondition.Writes text.toList ⟨name, comparator, literal⟩ := by
    generalize text.toList = t at h
    rcases h with _ | ⟨hb₀, _ | ⟨hb₁, _ | ⟨hb₂, hb₃ | _⟩⟩⟩
    have hparts : WrittenCondition.Writes _ ⟨String.ofList name.toList, comparator, literal⟩ :=
      .parts hb₀ hb₁ hb₂ hb₃ hname hliteral
    rwa [String.ofList_toList] at hparts
  rw [Condition.read, hwrites.read_eq, Outcome.ok_bind, hi]
  rfl

/-! ## Names -/

namespace Schema

variable {config : Config} {s : Schema} {d : ColumnDecl} {i : Nat}

/-- The name of the column at a position leads to it wherever names can stand. -/
structure Reaches (s : Schema) (d : ColumnDecl) (i : Nat) : Prop where
  /-- Among the columns to return. The rest of the plan is what it is without. -/
  returned : ∀ q : Query, Query.Plan.ofQuery s { q with keys := some [d.name] } =
    (Query.Plan.ofQuery s { q with keys := none }).map ({ · with projection := some [i] })
  /-- In an order entry, by itself and among others. -/
  sorted : ∀ direction entry, OrderEntry d.name direction entry →
    Query.Plan.readOrderEntry s entry = .ok (i, direction) ∧
      ∀ (q : Query) (plan : Query.Plan) (k : Nat), Query.Plan.ofQuery s q = .ok plan →
        q.order[k]? = some entry → plan.order[k]? = some (i, direction)
  /-- In a row by name. -/
  filled : ∀ fields raw, Ordered fields → (d.name, raw) ∈ fields →
    RowInput.Fills s d i fields raw
  /-- In a row of one name, which supplies nothing for the other columns. -/
  filledAlone : ∀ raw, (RowInput.named [(d.name, raw)]).supplied s =
    .ok ((List.replicate s.size none).set i ((some raw).filter (!·.isNull)))
  /-- In a condition, which is about no other column. -/
  compared : ∀ comparator literal lit text, literal.Writes lit →
    Spaced [d.name.toList, comparator.symbol.toList, lit] text.toList →
    Condition.WrittenBy s text ⟨d.name, i, comparator, literal⟩ ∧
      ∀ row row' : Row, row[i]? = row'[i]? → Condition.holds ⟨d.name, i, comparator, literal⟩ row =
        Condition.holds ⟨d.name, i, comparator, literal⟩ row'
  /-- In all parts of a query at once. -/
  planned : ∀ direction entry comparator literal lit text, OrderEntry d.name direction entry →
    literal.Writes lit → Spaced [d.name.toList, comparator.symbol.toList, lit] text.toList →
    ∃ plan, Query.Plan.ofQuery s { keys := some [d.name], order := [entry], clause := [text] } =
        .ok plan ∧
      plan.projection = some [i] ∧ plan.order = [(i, direction)] ∧
      plan.clause = ⟨[⟨d.name, i, comparator, literal⟩], [], []⟩ ∧ ∀ k, plan.Mentions k ↔ k = i

/-- Every column of a checked schema is reached by its name, whatever names are reserved. -/
theorem Checked.reaches (h : s.Checked config) (hd : s.columns[i]? = some d) : s.Reaches d i := by
  have hvalid := h.valid
  have hi : s.position? d.name = some i := position?_name hvalid.distinct hd
  have hname : IsIdentifier d.name.toList := (hvalid.columns d (List.mem_of_getElem? hd)).name
  have hentry : ∀ direction entry, OrderEntry d.name direction entry →
      Query.Plan.readOrderEntry s entry = .ok (i, direction) := fun _ _ horder =>
    Query.Plan.readOrderEntry_of_writtenAs (horder.writtenAs (forall_of_isIdentifier hname)) hi
  have hcondition : ∀ comparator literal lit text, literal.Writes lit →
      Spaced [d.name.toList, comparator.symbol.toList, lit] text.toList →
      Condition.WrittenBy s text ⟨d.name, i, comparator, literal⟩ := fun _ _ _ _ hliteral hspaced =>
    Condition.writtenBy_of_read (Condition.read_of_spaced hname hi hliteral hspaced)
  refine
    { returned := Query.Plan.ofQuery_keys hi
      sorted := fun direction entry horder => ⟨hentry _ _ horder, fun _ _ _ hplan hk =>
        Query.Plan.order_getElem? hplan hk (hentry _ _ horder)⟩
      filled := fun fields raw hfields hmem =>
        { refused := fun _ => RowInput.refused_of_supplied
          slot := fun _ => RowInput.supplied_getElem? hd hfields hmem
          stored := fun _ _ _ hcolumns => RowInput.encode_getElem? hvalid hcolumns hd hfields hmem }
      filledAlone := RowInput.supplied_singleton hvalid.distinct hd
      compared := fun comparator literal _ _ hliteral hspaced =>
        ⟨hcondition _ _ _ _ hliteral hspaced, fun _ _ hrow =>
          Condition.holds_congr (c := ⟨d.name, i, comparator, literal⟩) hrow⟩
      planned := fun direction entry comparator literal lit text horder hliteral hspaced => ?_ }
  have hclause := (hcondition _ _ _ _ hliteral hspaced).clause
  refine ⟨_, Query.Plan.ofQuery_parts hi (hentry _ _ horder) hclause, rfl, rfl, rfl, fun k => ?_⟩
  simp [Query.Plan.mentions_iff, WhereClause.conditions]

/-- Where no name is reserved, columns may be named for a join word and a direction. -/
theorem Checked.reaches_words :
    let config : Config := { Config.default with reservedNames := [] }
    let s : Schema := ⟨[⟨"or", .integer, 4, false, false, false⟩, ⟨"asc", .text, 8, false, false, false⟩]⟩
    let d : ColumnDecl := ⟨"asc", .text, 8, false, false, false⟩
    ofDefs config s.columns = .ok s ∧ s.columns[1]? = some d ∧
      (Query.Plan.ofQuery s
        { keys := some ["asc"], order := [" asc\t: Desc"], clause := ["or==1", "OR", " asc ~= 'or'"] } =
        .ok ⟨some [1], [(1, .descending)], ⟨[], [[⟨"or", 0, .equal, .number (.ofInt 1) "1"⟩,
          ⟨"asc", 1, .contains, .text "or"⟩]], []⟩, none, none⟩) ∧
      s.Checked config ∧ s.Reaches d 1 := by
  intro config s d
  have hchecked : ofDefs config s.columns = .ok s := by decide +kernel
  have hplan : Query.Plan.ofQuery s
      { keys := some ["asc"], order := [" asc\t: Desc"], clause := ["or==1", "OR", " asc ~= 'or'"] } =
      .ok ⟨some [1], [(1, .descending)], ⟨[], [[⟨"or", 0, .equal, .number (.ofInt 1) "1"⟩,
        ⟨"asc", 1, .contains, .text "or"⟩]], []⟩, none, none⟩ := by decide +kernel
  have hs : s.Checked config := .inr ⟨_, hchecked⟩
  exact ⟨hchecked, rfl, hplan, hs, hs.reaches rfl⟩

end Schema

end TypedTables
