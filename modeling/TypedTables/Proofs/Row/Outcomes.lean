import TypedTables.Proofs.Formats.DefaultPatterns
import TypedTables.Proofs.Row.Shapes
import TypedTables.Proofs.Table.Origins
import TypedTables.Proofs.Table.Refusals

/-!
# The outcome of each column

What comes of a column when a row is encoded, a value or a complaint, follows from its definition, its
slots, the patterns and what the row supplies for it (`ColumnDecl.Yields`). A row is encoded as the values
of all columns, or refused with the complaint of the first column that has one.
-/

namespace TypedTables

open Json

/-! ## Accepted shapes -/

namespace RowInput

variable {s : Schema} {input : RowInput} {formats : Formats Pattern} {columns : List Column}

/-- The row has no field without a column, and no more items than there are columns. -/
def Accepted (s : Schema) : RowInput → Prop
  | named fields => ∀ f ∈ fields, f.1 ∈ s.names
  | positional items => items.length ≤ s.size

/-- What the row has for a column, null included: the value of the field with its name, or the item in
its place. -/
def raw? (d : ColumnDecl) (k : Nat) : RowInput → Option Json
  | named fields => field? d.name fields
  | positional items => items[k]?

theorem Accepted.exists_supplied (h : input.Accepted s) :
    ∃ raws, input.supplied s = .ok raws ∧ raws.length = s.columns.length ∧
      ∀ k d, s.columns[k]? = some d → raws[k]? = some ((input.raw? d k).filter (!·.isNull)) := by
  cases input with
  | named fields =>
    refine ⟨_, supplied_named h, by simp [slotsOf], fun k d hd => ?_⟩
    simp [slotsOf, hd, raw?]
  | positional items =>
    refine ⟨_, supplied_positional h, by simp [Schema.size], fun k d hd => ?_⟩
    obtain ⟨hk, -⟩ := List.getElem?_eq_some_iff.mp hd
    simp [Schema.size, hk, raw?]

end RowInput

/-! ## The slots of a row -/

section Slots

variable {formats : Formats Pattern} {ds : List ColumnDecl} {cs : List Column}
  {raws : List (Option Json)} {k : Nat} {d : ColumnDecl} {c : Column} {raw : Option Json}

/-- The outcomes of all slots, whichever of them fail. -/
def slotOutcomes (formats : Formats Pattern) :
    List ColumnDecl → List Column → List (Option Json) → List (Except RowError Value)
  | d :: ds, c :: cs, raw :: raws =>
    d.encodeSlot formats c raw :: slotOutcomes formats ds cs raws
  | _, _, _ => []

theorem encodeSlots_eq_mapM : encodeSlots formats ds cs raws =
    (slotOutcomes formats ds cs raws).mapM id := by
  fun_induction encodeSlots formats ds cs raws with
  | case1 d ds c cs raw raws ih =>
    rw [slotOutcomes, List.mapM_cons, ih]
    rfl
  | case2 ds cs raws h =>
    rw [slotOutcomes]
    · rfl
    · exact h

theorem slotOutcomes_getElem? (hd : ds[k]? = some d) (hc : cs[k]? = some c)
    (hraw : raws[k]? = some raw) :
    (slotOutcomes formats ds cs raws)[k]? = some (d.encodeSlot formats c raw) := by
  induction k generalizing ds cs raws with
  | zero =>
    cases ds <;> cases hd
    cases cs <;> cases hc
    cases raws <;> cases hraw
    rfl
  | succ k ih =>
    cases ds with
    | nil => cases hd
    | cons d' ds =>
      cases cs with
      | nil => cases hc
      | cons c' cs =>
        cases raws with
        | nil => cases hraw
        | cons raw' raws => exact ih hd hc hraw

theorem length_slotOutcomes (hcs : cs.length = ds.length) (hraws : raws.length = ds.length) :
    (slotOutcomes formats ds cs raws).length = ds.length := by
  induction ds generalizing cs raws with
  | nil => cases cs <;> rfl
  | cons d ds ih =>
    obtain ⟨c, cs, rfl⟩ := List.exists_cons_of_length_eq_add_one hcs
    obtain ⟨raw, raws, rfl⟩ := List.exists_cons_of_length_eq_add_one hraws
    rw [slotOutcomes, List.length_cons, List.length_cons,
      ih (Nat.succ.inj hcs) (Nat.succ.inj hraws)]

end Slots

/-! ## Outcomes -/

theorem Value.Next.unique {v w w' : Value} (h : v.Next w) (h' : v.Next w') : w = w' := by
  cases h <;> cases h' <;> rfl

namespace ColumnDecl

def countType (d : ColumnDecl) : ColumnType := if d.type = .number then .number else .integer

/-- What a column counts on to: one if its last slot has no value to count on from, else the value after
that, if there is one. -/
inductive CountsOn (d : ColumnDecl) (c : Column) : Except RowError Value → Prop where
  | first (none : ∀ w, c.last? = some w → w.columnType? ≠ some d.countType) :
    CountsOn d c (.ok d.firstCount)
  | next {w v : Value} (last : c.last? = some w) (kind : w.columnType? = some d.countType)
    (next : w.Next v) : CountsOn d c (.ok v)
  | overflow {w : Value} (last : c.last? = some w) (kind : w.columnType? = some d.countType)
    (none : ∀ v, ¬w.Next v) : CountsOn d c (.error (.overflow d.name w.display))

def Absent (raw : Option Json) : Prop := raw = none ∨ raw = some .null

/-- What a column makes of what a row has for it, before the look at its values. -/
inductive Makes (d : ColumnDecl) (formats : Formats Pattern) (c : Column) :
    Option Json → Except RowError Value → Prop where
  | missing {raw : Option Json} (absent : Absent raw) (required : d.required = true) :
    Makes d formats c raw (.error (.missingValue d.name))
  | counted {raw : Option Json} {o : Except RowError Value} (absent : Absent raw)
    (optional : d.required = false) (auto : d.autoincrement = true) (counts : d.CountsOn c o) :
    Makes d formats c raw o
  | empty {raw : Option Json} (absent : Absent raw) (optional : d.required = false)
    (plain : d.autoincrement = false) : Makes d formats c raw (.ok .null)
  | array (items : List Json) : Makes d formats c (some (.arr items)) (.error (.invalidKind d.name))
  | object (fields : List (String × Json)) :
    Makes d formats c (some (.obj fields)) (.error (.invalidKind d.name))
  | tooLong {j : Json} {text : String} (scalar : rawText? j = some text)
    (long : d.size < text.length) :
    Makes d formats c (some j) (.error (.tooLong d.name d.size text.length))
  | mismatch {j : Json} {text : String} (scalar : rawText? j = some text)
    (short : text.length ≤ d.size) (unread : ∀ v, ¬d.ReadsFrom formats text v) :
    Makes d formats c (some j) (.error (.typeMismatch d.name d.type text))
  | read {j : Json} {text : String} {v : Value} (scalar : rawText? j = some text)
    (reads : d.ReadsFrom formats text v) : Makes d formats c (some j) (.ok v)

/-- What comes of a column: a unique one refuses a value that it holds. -/
inductive Yields (d : ColumnDecl) (formats : Formats Pattern) (c : Column) (raw : Option Json) :
    Except RowError Value → Prop where
  | failed {e : RowError} (makes : d.Makes formats c raw (.error e)) : Yields d formats c raw (.error e)
  | duplicate {v : Value} (makes : d.Makes formats c raw (.ok v)) (unique : d.unique = true)
    (held : c.contains v = true) : Yields d formats c raw (.error (.duplicateValue d.name v.display))
  | value {v : Value} (makes : d.Makes formats c raw (.ok v))
    (new : d.unique = true → c.contains v = false) : Yields d formats c raw (.ok v)

variable {d : ColumnDecl} {formats : Formats Pattern} {c : Column} {raw : Option Json}
  {o : Except RowError Value}

/-! ## Counting on -/

theorem CountsOn.unique {o' : Except RowError Value} (h : d.CountsOn c o) (h' : d.CountsOn c o') :
    o = o' := by
  cases h with
  | first none =>
    cases h' with
    | first => rfl
    | next last kind _ => exact absurd kind (none _ last)
    | overflow last kind _ => exact absurd kind (none _ last)
  | next last kind next =>
    cases h' with
    | first none => exact absurd kind (none _ last)
    | next last' _ next' =>
      obtain rfl := Option.some.inj (last.symm.trans last')
      rw [next.unique next']
    | overflow last' _ none =>
      obtain rfl := Option.some.inj (last.symm.trans last')
      exact absurd next (none _)
  | overflow last kind none =>
    cases h' with
    | first none' => exact absurd kind (none' _ last)
    | next last' _ next =>
      obtain rfl := Option.some.inj (last.symm.trans last')
      exact absurd next (none _)
    | overflow last' _ _ =>
      obtain rfl := Option.some.inj (last.symm.trans last')
      rfl

theorem countsOn_successor (d : ColumnDecl) (c : Column) : d.CountsOn c (d.successor c) := by
  have hnumber : d.type = .number → d.firstCount = .number (.ofInt 1) ∧ d.countType = .number :=
    fun h => ⟨if_pos h, if_pos h⟩
  have hinteger : d.type ≠ .number → d.firstCount = .integer 1 ∧ d.countType = .integer :=
    fun h => ⟨if_neg h, if_neg h⟩
  unfold successor
  split
  · next x htype hlast =>
    have hkind : (Value.number x).columnType? = some d.countType := by
      rw [(hnumber htype).2]
      rfl
    dsimp only
    split
    · next hstuck =>
      refine .overflow hlast hkind fun v hnext => ?_
      cases hnext with
      | number finite changed => simp [finite, changed] at hstuck
    · next hmoves =>
      simp only [Bool.or_eq_true, Bool.not_eq_true', not_or, Bool.not_eq_false,
        Bool.not_eq_true] at hmoves
      exact .next hlast hkind (.number hmoves.1 hmoves.2)
  · next htype hlast =>
    rw [← (hnumber htype).1]
    refine .first fun w hw hkind => ?_
    rw [(hnumber htype).2] at hkind
    cases w <;> cases hkind
    exact hlast _ hw
  · next i hlast htype =>
    have hkind : (Value.integer i).columnType? = some d.countType := by
      rw [(hinteger htype).2]
      rfl
    split
    · next hroom => exact .next hlast hkind (.integer hroom)
    · next hfull =>
      refine .overflow hlast hkind fun v hnext => ?_
      cases hnext with
      | integer room => exact hfull room
  · next htype hlast _ =>
    rw [← (hinteger htype).1]
    refine .first fun w hw hkind => ?_
    rw [(hinteger htype).2] at hkind
    cases w <;> cases hkind
    exact hlast _ hw

/-! ## What is made of what a row has -/

theorem filter_of_ne_null {j : Json} (h : j ≠ .null) : (some j).filter (!·.isNull) = some j := by
  cases j <;> first | rfl | contradiction

theorem filter_of_rawText? {j : Json} {text : String} (h : rawText? j = some text) :
    (some j).filter (!·.isNull) = some j := by
  refine filter_of_ne_null ?_
  rintro rfl
  cases h

theorem Makes.slotValue_eq (h : d.Makes formats c raw o) :
    d.slotValue formats c (raw.filter (!·.isNull)) = o := by
  cases h with
  | missing absent required =>
    rw [RowInput.filter_notNull_eq_none.mpr absent, slotValue, if_pos required]
  | counted absent optional auto counts =>
    rw [RowInput.filter_notNull_eq_none.mpr absent, slotValue, if_neg (by simp [optional]), if_pos auto]
    exact (countsOn_successor d c).unique counts
  | empty absent optional plain =>
    rw [RowInput.filter_notNull_eq_none.mpr absent, slotValue, if_neg (by simp [optional]),
      if_neg (by simp [plain])]
  | array items => rfl
  | object fields => rfl
  | tooLong scalar long =>
    rw [filter_of_rawText? scalar, slotValue, readRaw, scalar]
    exact if_pos long
  | mismatch scalar short unread =>
    rw [filter_of_rawText? scalar, slotValue, readRaw, scalar]
    dsimp only
    rw [if_neg (Nat.not_lt.mpr short)]
    split
    · rfl
    · next haccepted =>
      split
      · next hread => exact absurd ⟨short, by simpa using haccepted, hread⟩ (unread _)
      · rfl
  | read scalar reads =>
    rw [filter_of_rawText? scalar, slotValue]
    exact readRaw_eq_ok.mpr ⟨_, scalar, reads⟩

theorem makes_readRaw {j : Json} (hj : j ≠ .null) :
    d.Makes formats c (some j) (d.readRaw formats j) := by
  cases hscalar : rawText? j with
  | none =>
    cases j with
    | arr items => exact .array items
    | obj fields => exact .object fields
    | null => exact absurd rfl hj
    | _ => cases hscalar
  | some text =>
    by_cases hlong : d.size < text.length
    · rw [readRaw, hscalar]
      dsimp only
      rw [if_pos hlong]
      exact .tooLong hscalar hlong
    · by_cases hreads : ∃ v, d.ReadsFrom formats text v
      · obtain ⟨v, hreads⟩ := hreads
        rw [readRaw_eq_ok.mpr ⟨text, hscalar, hreads⟩]
        exact .read hscalar hreads
      · have hmakes : d.Makes formats c (some j) (.error (.typeMismatch d.name d.type text)) :=
          .mismatch hscalar (Nat.not_lt.mp hlong) (not_exists.mp hreads)
        have hslot := hmakes.slotValue_eq
        rw [filter_of_rawText? hscalar, slotValue] at hslot
        rwa [hslot]

theorem makes_slotValue (d : ColumnDecl) (formats : Formats Pattern) (c : Column)
    (raw : Option Json) : d.Makes formats c raw (d.slotValue formats c (raw.filter (!·.isNull))) := by
  by_cases habsent : Absent raw
  · rw [RowInput.filter_notNull_eq_none.mpr habsent, slotValue]
    split
    · next hrequired => exact .missing habsent hrequired
    · next hoptional =>
      have hoptional : d.required = false := by simpa using hoptional
      split
      · next hauto => exact .counted habsent hoptional hauto (countsOn_successor d c)
      · next hplain => exact .empty habsent hoptional (by simpa using hplain)
  · cases raw with
    | none => exact absurd (.inl rfl) habsent
    | some j =>
      have hj : j ≠ .null := fun h => habsent (.inr (congrArg some h))
      rw [filter_of_ne_null hj, slotValue]
      exact makes_readRaw hj

/-! ## What comes of a column -/

/-- Just one thing comes of a column, and it is what its slot is encoded as. -/
theorem yields_iff :
    d.Yields formats c raw o ↔ d.encodeSlot formats c (raw.filter (!·.isNull)) = o := by
  constructor
  · intro h
    cases h with
    | failed makes =>
      rw [encodeSlot, makes.slotValue_eq]
      rfl
    | duplicate makes unique held =>
      rw [encodeSlot, makes.slotValue_eq, Outcome.ok_bind, unique, held]
      rfl
    | value makes new => exact encodeSlot_eq_ok.mpr ⟨makes.slotValue_eq, new⟩
  · rintro rfl
    have hmakes := makes_slotValue d formats c raw
    rw [encodeSlot]
    cases hv : d.slotValue formats c (raw.filter (!·.isNull)) with
    | error e =>
      rw [hv] at hmakes
      exact .failed hmakes
    | ok v =>
      rw [hv] at hmakes
      rw [Outcome.ok_bind]
      split
      · next hduplicate =>
        rw [Bool.and_eq_true] at hduplicate
        exact .duplicate hmakes hduplicate.1 hduplicate.2
      · next hnew => exact .value hmakes fun hunique => by simpa [hunique] using hnew

end ColumnDecl

/-! ## Rows -/

namespace RowInput

variable {s : Schema} {input : RowInput} {columns : List Column}

/-- Each column has an outcome of its own. The row is encoded just if all of them are values, as these
values, and else refused with the complaint of the first column that has one. -/
theorem encode_outcomes (formats : Formats Pattern) (hcolumns : columns.length = s.size)
    (haccepted : input.Accepted s) :
    ∃ outcomes : List (Except RowError Value), outcomes.length = s.size ∧
      (∀ (k : Nat) d c, s.columns[k]? = some d → columns[k]? = some c →
        ∃ o, outcomes[k]? = some o ∧ ∀ o', d.Yields formats c (input.raw? d k) o' ↔ o' = o) ∧
      (∀ row, input.encode formats s columns = .ok row ↔ outcomes = row.map .ok) ∧
      (∀ e, input.encode formats s columns = .error e ↔
        ∃ k : Nat, outcomes[k]? = some (.error e) ∧ ∀ j < k, ∃ v, outcomes[j]? = some (.ok v)) := by
  obtain ⟨raws, hraws, hlength, hraw⟩ := haccepted.exists_supplied
  have hencode : input.encode formats s columns =
      (slotOutcomes formats s.columns columns raws).mapM id := by
    rw [encode, hraws, Outcome.ok_bind, encodeSlots_eq_mapM]
  refine ⟨slotOutcomes formats s.columns columns raws, length_slotOutcomes hcolumns hlength,
    fun k d c hd hc => ?_, fun row => ?_, fun e => ?_⟩
  · refine ⟨_, slotOutcomes_getElem? hd hc (hraw k d hd), fun o' => ?_⟩
    rw [ColumnDecl.yields_iff, eq_comm]
  · rw [hencode, Outcome.mapM_id_eq_ok]
  · rw [hencode, Outcome.mapM_id_eq_error]

/-- A row with two complaints, of which that about the second column comes first. -/
theorem encode_outcomes_names : ∃ formats s columns,
    Config.defaultFormats.readPatterns = .ok formats ∧ s.names = ["id", "name", "known"] ∧
    columns = [Column.mk "id" .integer (.integers #[1]) #[false], .new "name" .text,
      .new "known" .boolean] ∧
    (positional [.str "2", .str "long", .str "maybe"]).encode formats s columns =
      .error (.tooLong "name" 2 4) := by
  let number : ColumnDecl := ⟨"id", .integer, 4, true, false, false⟩
  let name : ColumnDecl := ⟨"name", .text, 2, false, true, false⟩
  let known : ColumnDecl := ⟨"known", .boolean, 5, false, false, false⟩
  obtain ⟨outcomes, -, heach, -, herror⟩ := @encode_outcomes ⟨[number, name, known]⟩
    (positional [.str "2", .str "long", .str "maybe"])
    [⟨"id", .integer, .integers #[1], #[false]⟩, .new "name" .text, .new "known" .boolean]
    Formats.defaultPatterns rfl (Nat.le_refl 3)
  have htwo : number.ReadsFrom Formats.defaultPatterns "2" (.integer 2) :=
    ⟨by decide, by decide +kernel, by decide +kernel⟩
  refine ⟨_, _, _, Formats.readPatterns_default, rfl, rfl, (herror _).mpr ⟨1, ?_, fun j hj => ?_⟩⟩
  · obtain ⟨o, ho, honly⟩ := heach 1 name _ rfl rfl
    rw [ho, ← (honly _).mp (.failed (.tooLong rfl (by decide)))]
    rfl
  · obtain rfl : j = 0 := by omega
    obtain ⟨o, ho, honly⟩ := heach 0 number _ rfl rfl
    rw [ho, ← (honly _).mp (.value (.read rfl htwo) fun _ => by decide +kernel)]
    exact ⟨_, rfl⟩

end RowInput

end TypedTables
