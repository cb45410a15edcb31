import Mathlib.Order.Compare
import TypedTables.Proofs.Condition.Ordering
import TypedTables.Proofs.Formats.DefaultTexts

/-!
# Times and dates in chronological order

A time is the number of a second of its day and a date is a year, a month and a day, however they are
spelled. Under the default patterns stored times and dates compare by these numbers
(`Formats.OrdersBy`), and so do conditions on them: leap seconds and days before the year 0, which have no
such numbers, are not accepted.
-/

namespace TypedTables

open Text

/-- A pair of numbers of which the second is bounded compares like one number. -/
theorem compare_then_compare {q r q' r' b : Nat} (hr : r < b) (hr' : r' < b) :
    (compare q q').then (compare r r') = compare (q * b + r) (q' * b + r') := by
  have hlt : ∀ {q r q' r' : Nat}, r < b → q < q' → q * b + r < q' * b + r' := by
    intro q r q' r' hr h
    have hmul := Nat.mul_le_mul_right b h
    rw [Nat.succ_mul] at hmul
    omega
  rcases Nat.lt_trichotomy q q' with h | rfl | h
  · rw [Nat.compare_eq_lt.mpr h, Nat.compare_eq_lt.mpr (hlt hr h)]
    rfl
  · rw [Nat.compare_eq_eq.mpr rfl, Ordering.eq_then]
    simp only [Nat.compare_eq_ite_lt, Nat.add_lt_add_iff_left]
  · rw [Nat.compare_eq_gt.mpr h, Nat.compare_eq_gt.mpr (hlt hr' h)]
    rfl

theorem compare_natCast (m n : Nat) : compare (m : Int) n = compare m n := by
  simp only [Int.compare_eq_ite_lt, Nat.compare_eq_ite_lt, Int.ofNat_lt]

namespace Calendar

variable {a b : String}

/-! ## Seconds of the day -/

namespace ClockTime

/-- The text names this second of the day. -/
inductive Names : String → Nat → Prop where
  | intro {text : String} {hour minute second : Nat}
    (writes : Writes text.toList hour minute second) :
    Names text (hour * 3600 + minute * 60 + second)

def secondOfDay (t : ClockTime) : Nat := t.hour * 3600 + t.minute * 60 + t.second

theorem Writes.second_lt {s : List Char} {hour minute second : Nat}
    (h : Writes s hour minute second) : second < 60 := by
  cases h with
  | short => decide
  | long _ _ _ _ _ hlt => exact hlt

theorem compare_eq_of_second_lt {t u : ClockTime} (ht : t.second.val < 60) (hu : u.second.val < 60) :
    t.compare u = compare t.secondOfDay u.secondOfDay := by
  have hsplit : ∀ v : ClockTime, v.secondOfDay = (v.hour * 60 + v.minute) * 60 + v.second := by
    intro v
    rw [secondOfDay]
    omega
  calc t.compare u
      = (compare t.hour.val u.hour.val).then
          ((compare t.minute.val u.minute.val).then (compare t.second.val u.second.val)) := rfl
    _ = (compare (t.hour * 60 + t.minute : Nat) (u.hour * 60 + u.minute)).then
          (compare t.second.val u.second.val) := by
        rw [← Ordering.then_assoc, compare_then_compare t.minute.isLt u.minute.isLt]
    _ = compare t.secondOfDay u.secondOfDay := by
        rw [compare_then_compare ht hu, hsplit, hsplit]

theorem Names.exists_read? {n : Nat} (h : Names a n) :
    ∃ t, read? a = some t ∧ t.second.val < 60 ∧ t.secondOfDay = n := by
  obtain ⟨hwrites⟩ := h
  obtain ⟨t, hread, hhour, hminute, hsecond⟩ := hwrites.exists_read?
  refine ⟨t, hread, ?_, ?_⟩
  · rw [hsecond]
    exact hwrites.second_lt
  · rw [secondOfDay, hhour, hminute, hsecond]

theorem compare_of_names {n m : Nat} (ha : Names a n) (hb : Names b m) :
    ∃ t u, read? a = some t ∧ read? b = some u ∧ t.compare u = compare n m := by
  obtain ⟨t, ht, htlt, rfl⟩ := ha.exists_read?
  obtain ⟨u, hu, hult, rfl⟩ := hb.exists_read?
  exact ⟨t, u, ht, hu, compare_eq_of_second_lt htlt hult⟩

end ClockTime

/-! ## Days of the calendar -/

namespace Date

/-- The text names this year, month and day. -/
inductive Names : String → Nat × Nat × Nat → Prop where
  | intro {text : String} {year month day : Nat} (writes : Writes text.toList year month day) :
    Names text (year, month, day)

def compareNumbers (x y : Nat × Nat × Nat) : Ordering :=
  (compare x.1 y.1).then ((compare x.2.1 y.2.1).then (compare x.2.2 y.2.2))

theorem compare_of_names {x y : Nat × Nat × Nat} (ha : Names a x) (hb : Names b y) :
    ∃ d e, read? a = some d ∧ read? b = some e ∧ d.compare e = compareNumbers x y := by
  obtain ⟨hwrites⟩ := ha
  obtain ⟨hwrites'⟩ := hb
  obtain ⟨d, hd, hyear, hmonth, hday⟩ := hwrites.exists_read?
  obtain ⟨e, he, hyear', hmonth', hday'⟩ := hwrites'.exists_read?
  refine ⟨d, e, hd, he, ?_⟩
  calc d.compare e
      = (compare d.year e.year).then ((compare d.month e.month).then (compare d.day e.day)) := rfl
    _ = _ := by
      rw [hyear, hyear', hmonth, hmonth', hday, hday', compare_natCast]
      rfl

theorem compareNumbers_eq_eq {x y : Nat × Nat × Nat} : compareNumbers x y = .eq ↔ x = y := by
  simp only [compareNumbers, Ordering.then_eq_eq, Nat.compare_eq_eq, Prod.ext_iff]

end Date

end Calendar

open Calendar

/-! ## Stored values and conditions -/

namespace Formats

/-- A column of the type takes the text for the value. -/
def Takes (formats : Formats Pattern) (type : ColumnType) (text : String) (v : Value) : Prop :=
  ∃ d : ColumnDecl, d.type = type ∧ d.readRaw formats (.str text) = .ok v

/-- Under the patterns, the values of a type are in the order of what their texts name. -/
structure OrdersBy {α : Type} (formats : Formats Pattern) (type : ColumnType)
    (Names : String → α → Prop) (cmp : α → α → Ordering) : Prop where
  /-- Every text that is taken names something. -/
  names : ∀ {text v}, formats.Takes type text v → ∃ x, Names text x
  /-- No text names two things. -/
  unique : ∀ {text x y}, Names text x → Names text y → x = y
  /-- Values compare as what their texts name. -/
  compare_eq : ∀ {a b u v x y}, formats.Takes type a u → formats.Takes type b v → Names a x →
    Names b y → u.compare v = cmp x y
  /-- Values of different texts are equal if these name the same. -/
  eq_iff : ∀ {x y}, cmp x y = .eq ↔ x = y
  /-- Conditions with a quoted text that names something compare so too. -/
  holds_eq : ∀ {a u x text y key k c ask} {row : Row}, formats.Takes type a u → Names a x →
    Names text y → row[k]? = some u → c.asks? = some ask →
    (Condition.mk key k c (.text text)).holds row = ask (cmp x y)

variable {formats : Formats Pattern} {type : ColumnType} {text : String} {v : Value}

theorem Takes.reads (h : formats.Takes type text v) :
    formats.accepts type text = true ∧ Value.read? type text = some v := by
  obtain ⟨d, rfl, h⟩ := h
  obtain ⟨_, htext, hreads⟩ := ColumnDecl.readRaw_eq_ok.mp h
  cases htext
  exact ⟨hreads.accepted, hreads.reads⟩

theorem Takes.eq_time (h : formats.Takes .time text v) : v = .time text := by
  obtain ⟨_, -, rfl⟩ := Option.map_eq_some_iff.mp h.reads.2
  rfl

theorem Takes.eq_date (h : formats.Takes .date text v) : v = .date text := by
  obtain ⟨_, -, rfl⟩ := Option.map_eq_some_iff.mp h.reads.2
  rfl

/-- Values that are compared by reading their texts are in the order of what these name, if they are read
as what is in that order. -/
theorem ordersBy_of_read {α τ : Type} (make : String → Value) {read? : String → Option τ}
    {order : τ → τ → Ordering} {Names : String → α → Prop} {cmp : α → α → Ordering}
    (hmake : ∀ {text v}, formats.Takes type text v → v = make text) (hne : ∀ text, make text ≠ .null)
    (hvalues : ∀ a b, (make a).compare (make b) = Value.compareRead read? order a b)
    (hliteral : ∀ {a b t u}, read? a = some t → read? b = some u →
      (Literal.text b).compareWith? (make a) = some (order t u))
    (hself : ∀ t, order t t = .eq) (heq : ∀ {x y}, cmp x y = .eq ↔ x = y)
    (hnames : ∀ {text v}, formats.Takes type text v → ∃ x, Names text x)
    (hread : ∀ {a b x y}, Names a x → Names b y →
      ∃ t u, read? a = some t ∧ read? b = some u ∧ order t u = cmp x y) :
    formats.OrdersBy type Names cmp where
  names := hnames
  unique hx hy := by
    obtain ⟨t, u, ht, hu, hcompare⟩ := hread hx hy
    obtain rfl := Option.some.inj (ht.symm.trans hu)
    rw [← heq, ← hcompare, hself]
  compare_eq hu hv hx hy := by
    obtain ⟨t, t', ht, ht', hcompare⟩ := hread hx hy
    rw [hmake hu, hmake hv, hvalues, ← hcompare]
    simp only [Value.compareRead, ht, ht']
  eq_iff := heq
  holds_eq hu hx hy hrow hc := by
    obtain ⟨t, t', ht, ht', hcompare⟩ := hread hx hy
    rw [hmake hu] at hrow
    rw [Condition.holds_of_getElem? hrow (hne _), ← hcompare]
    exact Comparator.holds_of_compareWith? hc (hliteral ht ht')

theorem times_ordersBy : defaultPatterns.OrdersBy .time ClockTime.Names compare := by
  refine ordersBy_of_read Value.time Takes.eq_time (by simp) (fun _ _ => rfl) ?_
    (fun _ => Std.ReflCmp.compare_self) Nat.compare_eq_eq ?_ ClockTime.compare_of_names
  · intro a b t u ht hu
    simp only [Literal.compareWith?, Literal.toText, ht, hu]
  · intro text v h
    obtain ⟨haccepts, hread⟩ := h.reads
    obtain ⟨t, ht, -⟩ := Option.map_eq_some_iff.mp hread
    obtain ⟨_, _, _, hwrites⟩ := exists_writes_of_time haccepts ht
    exact ⟨_, .intro hwrites⟩

theorem dates_ordersBy : defaultPatterns.OrdersBy .date Date.Names Date.compareNumbers := by
  refine ordersBy_of_read Value.date Takes.eq_date (by simp) (fun _ _ => rfl) ?_
    (fun _ => Std.ReflCmp.compare_self) Date.compareNumbers_eq_eq ?_ Date.compare_of_names
  · intro a b d e hd he
    simp only [Literal.compareWith?, Literal.toText, hd, he]
  · intro text v h
    obtain ⟨haccepts, hread⟩ := h.reads
    obtain ⟨d, hd, -⟩ := Option.map_eq_some_iff.mp hread
    obtain ⟨_, _, _, hwrites⟩ := exists_writes_of_date haccepts hd
    exact ⟨_, .intro hwrites⟩

/-- Under the default patterns times are in the order of the seconds of the day, and dates in the order
of years, months and days. -/
theorem exists_chronological : ∃ formats, Config.defaultFormats.readPatterns = .ok formats ∧
    formats.OrdersBy .time ClockTime.Names compare ∧
    formats.OrdersBy .date Date.Names Date.compareNumbers :=
  ⟨defaultPatterns, readPatterns_default, times_ordersBy, dates_ordersBy⟩

/-- Two spellings of one time, before another as times and behind it as texts. -/
theorem exists_chronological_times : ∃ formats, Config.defaultFormats.readPatterns = .ok formats ∧
    (Value.time "9:00").compare (.time "09:00:00") = .eq ∧
    (Condition.mk "at" 0 .less (.text "10:00")).holds [.time "9:00"] = true := by
  obtain ⟨formats, hformats, htimes, -⟩ := exists_chronological
  obtain rfl : defaultPatterns = formats :=
    Except.ok.inj (readPatterns_default.symm.trans hformats)
  have hshort : ClockTime.Names "9:00" (9 * 3600 + 0 * 60 + 0) :=
    .intro (@ClockTime.Writes.short ['9'] ['0', '0'] 9 0
      (by decide) (by decide) (by decide) (by decide))
  have hlong : ClockTime.Names "09:00:00" (9 * 3600 + 0 * 60 + 0) :=
    .intro (@ClockTime.Writes.long ['0', '9'] ['0', '0'] ['0', '0'] 9 0 0
      (by decide) (by decide) (by decide) (by decide) (by decide) (by decide))
  have hlater : ClockTime.Names "10:00" (10 * 3600 + 0 * 60 + 0) :=
    .intro (@ClockTime.Writes.short ['1', '0'] ['0', '0'] 10 0
      (by decide) (by decide) (by decide) (by decide))
  have htakes : defaultPatterns.Takes .time "9:00" (.time "9:00") :=
    ⟨⟨"at", .time, 8, false, false, false⟩, rfl, by decide +kernel⟩
  have htakes' : defaultPatterns.Takes .time "09:00:00" (.time "09:00:00") :=
    ⟨⟨"at", .time, 8, false, false, false⟩, rfl, by decide +kernel⟩
  refine ⟨_, hformats, ?_, ?_⟩
  · exact (htimes.compare_eq htakes htakes' hshort hlong).trans (Nat.compare_eq_eq.mpr rfl)
  · exact (htimes.holds_eq htakes hshort hlater rfl rfl).trans (by decide)

end Formats

end TypedTables
