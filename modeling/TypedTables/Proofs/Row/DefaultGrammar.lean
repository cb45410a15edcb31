import TypedTables.Proofs.Formats.DefaultTexts
import TypedTables.Proofs.Table.Origins

/-!
# Supplied texts under the default patterns

Under the default patterns a supplied text that is not too long is read if it is spelled for the type of
its column (`ColumnType.Spelled`), as the value that it denotes (`Value.Denoted`), and is a type mismatch
otherwise.
-/

namespace TypedTables

open Text Calendar Formats

/-- The value that a text denotes: the correctly rounded number, the whole number, the truth value; texts,
times and dates as they are written. -/
inductive Value.Denoted : List Char → Value → Prop where
  | text (s : String) : Denoted s.toList (.text s)
  | number {whole fraction : List Char} {x : Binary64} (digits : isDigits whole = true)
    (decimals : ∀ c ∈ fraction, c.isDigit = true)
    (rounded : x.Rounds false (Binary64.decimalValue whole fraction)) :
    Denoted (whole ++ pointed fraction) (.number x)
  | integer {ds : List Char} {i : Int64} (digits : isDigits ds = true)
    (value : i.toInt = digitsValue ds) : Denoted ds (.integer i)
  | boolean (b : Bool) : Denoted (toString b).toList (.boolean b)
  | time (s : String) : Denoted s.toList (.time s)
  | date (s : String) : Denoted s.toList (.date s)

variable {type : ColumnType} {s : String} {v : Value}

theorem ColumnType.Spelled.accepts (h : type.Spelled s.toList) :
    defaultPatterns.accepts type s = true := by
  unfold Formats.accepts
  generalize s.toList = w at h
  cases h with
  | text => rfl
  | number digits decimals => exact number_of_digits digits decimals
  | integer digits fits => exact integer_of_digits digits
  | boolean b =>
    refine boolean_isFoundIn.mpr ?_
    cases b with
    | true => exact .inl rfl
    | false => exact .inr rfl
  | time writes => exact time_of_writes writes
  | date writes => exact date_of_writes writes

theorem ColumnType.Spelled.exists_read? (h : type.Spelled s.toList) :
    ∃ v, Value.read? type s = some v ∧ v.columnType? = some type ∧ v.Denoted s.toList := by
  generalize hw : s.toList = w at h
  cases h with
  | text =>
    rw [← hw]
    exact ⟨_, rfl, rfl, .text s⟩
  | @number whole fraction digits decimals =>
    have hread : Binary64.read? (signOf false ++ whole ++ pointed fraction) = some _ :=
      Binary64.read?_numeral digits (List.all_eq_true.mpr decimals)
    have hrounds := Binary64.rounds_of_numeral digits (List.all_eq_true.mpr decimals) hread
    refine ⟨_, ?_, rfl, .number digits decimals hrounds⟩
    rw [Value.read?, hw]
    exact congrArg (Option.map Value.number) hread
  | integer digits fits =>
    obtain ⟨i, hread, hi⟩ := readInt64?_digits digits fits
    refine ⟨.integer i, ?_, rfl, .integer digits hi⟩
    rw [Value.read?, hw, hread]
    rfl
  | boolean b =>
    obtain rfl : s = toString b := String.toList_inj.mp hw
    exact ⟨.boolean b, by cases b <;> rfl, rfl, .boolean b⟩
  | time writes =>
    rw [← hw] at writes ⊢
    obtain ⟨t, hread, -⟩ := writes.exists_read?
    exact ⟨.time s, by rw [Value.read?, hread]; rfl, rfl, .time s⟩
  | date writes =>
    rw [← hw] at writes ⊢
    obtain ⟨d, hread, -⟩ := writes.exists_read?
    exact ⟨.date s, by rw [Value.read?, hread]; rfl, rfl, .date s⟩

/-- What looks like a value of a type and is read as one is spelled for it. -/
theorem spelled_of_read? (haccepts : defaultPatterns.accepts type s = true)
    (hread : Value.read? type s = some v) : type.Spelled s.toList := by
  cases type with
  | text => exact .text _
  | number =>
    obtain ⟨x, hx, -⟩ := Option.map_eq_some_iff.mp hread
    exact spelled_of_number haccepts hx
  | integer =>
    obtain ⟨i, hi, -⟩ := Option.map_eq_some_iff.mp hread
    exact spelled_of_integer haccepts hi
  | boolean =>
    rcases boolean_isFoundIn.mp haccepts with h | h
    · rw [h]
      exact .boolean true
    · rw [h]
      exact .boolean false
  | time =>
    obtain ⟨t, ht, -⟩ := Option.map_eq_some_iff.mp hread
    obtain ⟨_, _, _, hwrites⟩ := exists_writes_of_time haccepts ht
    exact .time hwrites
  | date =>
    obtain ⟨d, hd, -⟩ := Option.map_eq_some_iff.mp hread
    obtain ⟨_, _, _, hwrites⟩ := exists_writes_of_date haccepts hd
    exact .date hwrites

namespace ColumnDecl

theorem readRaw_of_not_spelled {d : ColumnDecl} {raw : Json} (hraw : rawText? raw = some s)
    (hsize : s.length ≤ d.size) (hs : ¬d.type.Spelled s.toList) :
    d.readRaw defaultPatterns raw = .error (.typeMismatch d.name d.type s) := by
  unfold readRaw
  rw [hraw]
  dsimp only
  rw [if_neg (Nat.not_lt.mpr hsize)]
  split
  · rfl
  · next haccepts =>
    split
    · next hread => exact absurd (spelled_of_read? (by simpa using haccepts) hread) hs
    · rfl

/-- Under the default patterns a text that is short enough for a column is read as the value that it
denotes if it is spelled for the type of the column, and is refused as a mismatch if it is not. -/
theorem readRaw_default : ∃ formats, Config.defaultFormats.readPatterns = .ok formats ∧
    ∀ (d : ColumnDecl) (s : String), s.length ≤ d.size →
      (d.type.Spelled s.toList → ∃ v, d.readRaw formats (.str s) = .ok v ∧
        v.columnType? = some d.type ∧ v.Denoted s.toList) ∧
      (¬d.type.Spelled s.toList →
        d.readRaw formats (.str s) = .error (.typeMismatch d.name d.type s)) := by
  refine ⟨defaultPatterns, readPatterns_default, fun d s hsize => ⟨fun hs => ?_, fun hs => ?_⟩⟩
  · obtain ⟨v, hread, htype, hdenoted⟩ := hs.exists_read?
    exact ⟨v, readRaw_eq_ok.mpr ⟨s, rfl, hsize, hs.accepts, hread⟩, htype, hdenoted⟩
  · exact readRaw_of_not_spelled rfl hsize hs

/-- A day that there is, and one that there is not. -/
theorem readRaw_default_days : ∃ formats, Config.defaultFormats.readPatterns = .ok formats ∧
    (ColumnDecl.mk "day" .date 10 true false false).readRaw formats (.str "2024/2/29") =
      .ok (.date "2024/2/29") ∧
    (ColumnDecl.mk "day" .date 10 true false false).readRaw formats (.str "2023/2/29") =
      .error (.typeMismatch "day" .date "2023/2/29") := by
  obtain ⟨formats, hformats, h⟩ := readRaw_default
  refine ⟨formats, hformats, ?_, ?_⟩
  · have hwrites : Date.Writes "2024/2/29".toList 2024 2 29 :=
      @Date.Writes.intro '/' "2024".toList "2".toList "29".toList 2024 2 29 (.inr rfl)
        (by decide) (by decide) (by decide) (by decide)
    obtain ⟨v, hv, htype, hdenoted⟩ := (h ⟨"day", .date, 10, true, false, false⟩ "2024/2/29"
      (by decide)).1 (.date hwrites)
    generalize hw : "2024/2/29".toList = w at hdenoted
    cases hdenoted with
    | date s =>
      obtain rfl := String.toList_inj.mp hw
      exact hv
    | _ => cases htype
  · refine (h ⟨"day", .date, 10, true, false, false⟩ "2023/2/29" (by decide)).2 ?_
    intro hspelled
    obtain ⟨_, hread, -⟩ := hspelled.exists_read?
    have hnone : Value.read? .date "2023/2/29" = none := by decide +kernel
    rw [hnone] at hread
    cases hread

end ColumnDecl

end TypedTables
