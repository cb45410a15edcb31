import TypedTables.Proofs.Calendar.Separators
import TypedTables.Proofs.Condition.LiteralGrammar
import TypedTables.Proofs.Database.DefaultNumbers

/-!
# Conditions and the order of rows

A condition with the literal of a value (`Literal.Denotes`) says how a stored value compares with that
one in the order in which rows are sorted. Times and dates are read for both alike. For numbers this
needs that those stored are plain, as they are under the default patterns: the numeric order of
conditions knows one zero and no order for what is no number. Whole numbers are left out, which
conditions compare as doubles. A literal without a meaning among the values of a column
(`Literal.Foreign`) is only different from all of them.
-/

namespace TypedTables

open Text Calendar

/-- What the comparators for equality and order ask of how a value compares. -/
def Comparator.asks? : Comparator → Option (Ordering → Bool)
  | equal => some Ordering.isEq
  | notEqual => some Ordering.isNe
  | less => some Ordering.isLT
  | greater => some Ordering.isGT
  | lessOrEqual => some Ordering.isLE
  | greaterOrEqual => some Ordering.isGE
  | startsWith | contains | endsWith => none

namespace Literal

/-- The literal is one for the value, if that is no whole number: its text, its number in any spelling or
its truth value. -/
inductive Denotes : Literal → Value → Prop where
  | text (s : String) : Denotes (text s) (.text s)
  | time (s : String) : Denotes (text s) (.time s)
  | date (s : String) : Denotes (text s) (.date s)
  | number (x : Binary64) (spelling : String) : Denotes (number x spelling) (.number x)
  | boolean (b : Bool) : Denotes (boolean b) (.boolean b)

/-- The literal means nothing among the values of a type: it is a text that is not read as one of them,
or it is of another kind. -/
inductive Foreign : ColumnType → Literal → Prop where
  | textNumber {s : String} (unread : Binary64.read? (trim s.toList) = none) : Foreign .number (text s)
  | textBoolean {s : String} (unread : readBool? s = none) : Foreign .boolean (text s)
  | textTime {s : String} (unread : ClockTime.read? s = none) : Foreign .time (text s)
  | textDate {s : String} (unread : Date.read? s = none) : Foreign .date (text s)
  | booleanNumber (b : Bool) : Foreign .number (boolean b)
  | booleanTime (b : Bool) : Foreign .time (boolean b)
  | booleanDate (b : Bool) : Foreign .date (boolean b)
  | numberBoolean (x : Binary64) (spelling : String) : Foreign .boolean (number x spelling)
  | numberTime (x : Binary64) (spelling : String) : Foreign .time (number x spelling)
  | numberDate (x : Binary64) (spelling : String) : Foreign .date (number x spelling)

/-! ## Numerals are no times or dates -/

theorem mem_tail_numeral {negative : Bool} {whole fraction : List Char} {c : Char}
    (hwhole : isDigits whole = true) (hfraction : ∀ c ∈ fraction, c.isDigit = true)
    (hc : c ∈ (signOf negative ++ whole ++ pointed fraction).tail) : c = '.' ∨ c.isDigit = true := by
  obtain ⟨hne, hdigits⟩ := isDigits_iff.mp hwhole
  obtain ⟨d, ds, rfl⟩ := List.exists_cons_of_ne_nil hne
  have hmem : c ∈ d :: ds ++ pointed fraction := by
    cases negative with
    | true => exact hc
    | false => exact List.mem_cons_of_mem _ hc
  rcases List.mem_append.mp hmem with hc | hc
  · exact .inr (hdigits c hc)
  · exact (mem_of_mem_pointed hc).imp_right (hfraction c)

theorem unread_of_numeral {negative : Bool} {whole fraction : List Char} {s : String}
    (hs : s.toList = signOf negative ++ whole ++ pointed fraction) (hbare : Bare s.toList)
    (hwhole : isDigits whole = true) (hfraction : ∀ c ∈ fraction, c.isDigit = true) :
    ClockTime.read? s = none ∧ Date.read? s = none := by
  have htail : ∀ c ∈ s.toList.tail, c = '.' ∨ c.isDigit = true := by
    intro c hc
    rw [hs] at hc
    exact mem_tail_numeral hwhole hfraction hc
  obtain ⟨head, tail, hcons, hhead⟩ := exists_head_numeral negative fraction hwhole
  rw [← hs] at hcons
  constructor
  · cases hread : ClockTime.read? s with
    | none => rfl
    | some t =>
      exfalso
      have hcolon := mem_of_readClockTime? hread
      rw [hcons] at hcolon htail
      rcases List.mem_cons.mp hcolon with rfl | hcolon
      · exact absurd hhead (by decide)
      · exact absurd (htail _ hcolon) (by decide)
  · cases hread : Date.read? s with
    | none => rfl
    | some d =>
      exfalso
      have hseparator := mem_of_readDate? hread
      rw [hbare.trim_eq, trimStart, dropWhile_of_stops hbare.1] at hseparator
      rcases hseparator with h | h
      · exact absurd (htail _ h) (by decide)
      · exact absurd (htail _ h) (by decide)

/-- A number as it is written names no time and no date. -/
theorem Writes.unread {s : List Char} {x : Binary64} {spelling : String}
    (h : (Literal.number x spelling).Writes s) :
    ClockTime.read? spelling = none ∧ Date.read? spelling = none := by
  have hbare := h.bare.1
  generalize hl : Literal.number x spelling = l at h
  cases h with
  | text | boolean => cases hl
  | @number negative whole fraction y digits decimals rounded =>
    cases hl
    apply unread_of_numeral (String.toList_ofList) ?_ digits decimals
    rwa [String.toList_ofList]

/-! ## What literals compare as -/

variable {l : Literal} {u v : Value} {type : ColumnType}

theorem compareWith?_time (a : String) (h : ClockTime.read? l.toText = none) :
    l.compareWith? (.time a) = none := by
  simp only [compareWith?, h]
  cases ClockTime.read? a <;> rfl

theorem compareWith?_date (a : String) (h : Date.read? l.toText = none) :
    l.compareWith? (.date a) = none := by
  simp only [compareWith?, h]
  cases Date.read? a <;> rfl

theorem Foreign.compareWith?_eq_none {s : List Char} (h : l.Foreign type) (hs : l.Writes s)
    (hu : u.columnType? = some type) : l.compareWith? u = none := by
  cases h <;> cases u <;> try cases hu
  case textNumber.number.refl unread x => exact congrArg (Option.bind · x.compare?) unread
  case textBoolean.boolean.refl unread b =>
    exact congrArg (Option.map fun c => compare b.toNat c.toNat) unread
  case textTime.time.refl unread a => exact compareWith?_time a unread
  case textDate.date.refl unread a => exact compareWith?_date a unread
  case booleanNumber.number.refl b x => rfl
  case booleanTime.time.refl b a => exact compareWith?_time a (by cases b <;> decide +kernel)
  case booleanDate.date.refl b a => exact compareWith?_date a (by cases b <;> decide +kernel)
  case numberBoolean.boolean.refl x spelling b => rfl
  case numberTime.time.refl x spelling a => exact compareWith?_time a hs.unread.1
  case numberDate.date.refl x spelling a => exact compareWith?_date a hs.unread.2

/-- With the literal of a value, values of its type compare as with the value. -/
theorem Denotes.compareWith?_eq (h : l.Denotes v) (hu : u.IsOf type) (hv : v.IsOf type)
    (hu' : u.columnType? = some type) (hv' : v.columnType? = some type)
    (hplain : ∀ x, u = .number x ∨ v = .number x → x.Plain) :
    l.compareWith? u = some (u.compare v) := by
  cases h <;> cases hv' <;> cases u <;> try cases hu'
  case text.refl.text.refl s a => rfl
  case time.refl.time.refl s a =>
    obtain ⟨x, hx⟩ := hu.time a rfl
    obtain ⟨y, hy⟩ := hv.time s rfl
    simp only [compareWith?, toText, hx, hy, Value.compare, Value.compareTimes, Value.compareRead]
  case date.refl.date.refl s a =>
    obtain ⟨x, hx⟩ := hu.date a rfl
    obtain ⟨y, hy⟩ := hv.date s rfl
    simp only [compareWith?, toText, hx, hy, Value.compare, Value.compareDates, Value.compareRead]
  case number.refl.number.refl y spelling x =>
    exact (hplain x (.inl rfl)).compare?_eq (hplain y (.inr rfl))
  case boolean.refl.boolean.refl c b => rfl

end Literal

/-! ## Comparators -/

namespace Comparator

variable {c : Comparator} {ask : Ordering → Bool} {v : Value} {l : Literal}

theorem holds_of_compareWith? {o : Ordering} (hc : c.asks? = some ask)
    (h : l.compareWith? v = some o) : c.holds v l = ask o := by
  cases c <;> cases hc <;> rw [holds, h] <;> cases o <;> rfl

theorem holds_of_compareWith?_eq_none (hc : c.asks? = some ask) (h : l.compareWith? v = none) :
    c.holds v l = (c == .notEqual) := by
  cases c <;> cases hc <;> rw [holds, h] <;> rfl

end Comparator

namespace Condition

/-! ## Stored values -/

variable {config : Config} {db : Database} {name : String} {t : Table} {d : ColumnDecl}
  {i j k : Nat} {row row' : Row} {u v : Value}

theorem holds_of_getElem? {row : Row} (hu : row[k]? = some u) (hne : u ≠ .null) (key : String)
    (c : Comparator) (l : Literal) : (Condition.mk key k c l).holds row = c.holds u l := by
  have hnull : u.isNull = false := by
    cases u <;> first | rfl | contradiction
  rw [holds, hu]
  show (!u.isNull && c.holds u l) = c.holds u l
  rw [hnull]
  rfl

/-- Under the default patterns, conditions look at stored values in the order in which they are sorted. -/
theorem holds_of_reachable (h : t.Reachable config)
    (hformats : Config.defaultFormats.readPatterns = .ok t.formats)
    (hd : t.schema.columns[k]? = some d) (hrow : t.row? i = some row) (hu : row[k]? = some u)
    (hu' : u ≠ .null) {c : Comparator} {ask : Ordering → Bool}
    (hc : c.asks? = some ask) (key : String) (l : Literal) :
    (∀ j v, t.value? j k = some v → v ≠ .null → l.Denotes v →
      (Condition.mk key k c l).holds row = ask (u.compare v)) ∧
    (∀ s, l.Writes s → l.Foreign d.type → (Condition.mk key k c l).holds row = (c == .notEqual)) := by
  have hvalue : t.value? i k = some u := by
    rw [Table.value?, hrow]
    exact hu
  have hstored : ∀ j w, t.value? j k = some w → w ≠ .null →
      w.IsOf d.type ∧ w.columnType? = some d.type ∧ ∀ x, w = .number x → x.Plain := by
    intro j w hw hne
    have hadmits := h.sound.admits_of_value? hd hw
    have hwtype := hadmits.kind.type.resolve_left hne
    refine ⟨hadmits.kind, hwtype, ?_⟩
    rintro x rfl
    exact h.plain hformats hd (Option.some.inj hwtype).symm hw
  obtain ⟨huof, hutype, huplain⟩ := hstored i u hvalue hu'
  rw [holds_of_getElem? hu hu']
  constructor
  · intro j v hv hv' hdenotes
    obtain ⟨hvof, hvtype, hvplain⟩ := hstored j v hv hv'
    refine Comparator.holds_of_compareWith? hc
      (hdenotes.compareWith?_eq huof hvof hutype hvtype ?_)
    rintro x (hx | hx)
    · exact huplain x hx
    · exact hvplain x hx
  · intro s hs hforeign
    exact Comparator.holds_of_compareWith?_eq_none hc (hforeign.compareWith?_eq_none hs hutype)

/-- Whatever commands are run on a new database with the default patterns, a condition with the literal of
a stored value finds another value in its column to come before it, with it or after it as sorting does.
A condition with a literal that means nothing there finds every value different, and that only. -/
theorem holds_iff_compare_of_run (hdb : Database.new config = .ok db)
    (hdefault : config.formats = Config.defaultFormats) (commands : List Command)
    (ht : (db.run commands).table? name = some t) (hd : t.schema.columns[k]? = some d)
    (hrow : t.row? i = some row) (hu : row[k]? = some u) (hu' : u ≠ .null)
    {c : Comparator} {ask : Ordering → Bool} (hc : c.asks? = some ask) (key : String) (l : Literal) :
    (∀ j v, t.value? j k = some v → v ≠ .null → l.Denotes v →
      (Condition.mk key k c l).holds row = ask (u.compare v)) ∧
    (∀ s, l.Writes s → l.Foreign d.type →
      (Condition.mk key k c l).holds row = (c == .notEqual)) := by
  have hreachable := ((Database.governed_new hdb).run commands).tables name t ht
  obtain ⟨hread, hchecks⟩ := Database.checksWith_new hdb
  rw [hdefault, ← (hchecks.run commands).tables name t ht] at hread
  exact holds_of_reachable hreachable hread hd hrow hu hu' hc key l

/-- A number that comes after another as a text, but before it as a number. -/
theorem holds_iff_compare_of_run_scores : ∃ db t, Database.new .default = .ok db ∧
    (db.run [
      .createWith "scores" [⟨"score", .number, 8, false, false, false⟩],
      .insert "scores" (.positional [.str "9.5"]),
      .insert "scores" (.positional [.str "10"])]).table? "scores" = some t ∧
    t.row? 0 = some [.number ((Binary64.read? "9.5".toList).getD .zero)] ∧
    t.value? 1 0 = some (.number (.ofInt 10)) ∧
    (Condition.mk "score" 0 .less (.number (.ofInt 10) "10")).holds
      [.number ((Binary64.read? "9.5".toList).getD .zero)] = true ∧
    (Condition.mk "score" 0 .less (.boolean true)).holds
      [.number ((Binary64.read? "9.5".toList).getD .zero)] = false :=
  Database.exists_table_of_run
    (fun t => t.row? 0 == some [.number ((Binary64.read? "9.5".toList).getD .zero)] &&
      t.value? 1 0 == some (.number (.ofInt 10)) &&
      t.schema.columns[0]?.map (·.type) == some .number)
    (by decide +kernel) fun db t hdb ht htest => by
      simp only [Bool.and_eq_true, beq_iff_eq] at htest
      obtain ⟨⟨hrow, hv⟩, htype⟩ := htest
      obtain ⟨d, hd, htype⟩ := Option.map_eq_some_iff.mp htype
      have h := holds_iff_compare_of_run hdb rfl _ ht hd hrow rfl (by decide)
        (c := .less) rfl "score"
      refine ⟨hrow, hv, ?_, ?_⟩
      · exact ((h _).1 1 _ hv (by decide) (.number _ "10")).trans (by decide +kernel)
      · exact (h _).2 _ (.boolean true) (by rw [htype]; exact .booleanNumber true)

end Condition

end TypedTables
