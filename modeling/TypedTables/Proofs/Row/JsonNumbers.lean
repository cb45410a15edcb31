import TypedTables.Proofs.Json.Numbers
import TypedTables.Proofs.Row.DefaultGrammar

/-!
# JSON numbers under the default patterns

A column of numbers takes every whole number that is not negative, as the nearest double, and every other
number without a minus as it is, as long as JSON writes it without an exponent. A number that is written
with one is a type mismatch, though the column has room for its text.
-/

namespace TypedTables

open Text

theorem ColumnType.spelled_number_iff {s : List Char} :
    ColumnType.number.Spelled s ↔ ∃ size, Binary64.Denotes s size := by
  constructor
  · rintro ⟨⟩
    next hdigits hdecimals => exact ⟨_, _, _, rfl, hdigits, hdecimals, rfl⟩
  · rintro ⟨size, whole, fraction, rfl, hdigits, hdecimals, -⟩
    exact .number hdigits hdecimals

namespace ColumnDecl

variable {d : ColumnDecl} {raw : Json} {s : String} {x : Binary64} {size : ℚ}

theorem readRaw_of_denotes (htype : d.type = .number) (hraw : rawText? raw = some s)
    (hsize : s.length ≤ d.size) (h : Binary64.Denotes s.toList size) (hx : x.Rounds false size) :
    d.readRaw Formats.defaultPatterns raw = .ok (.number x) := by
  have hspelled := ColumnType.spelled_number_iff.mpr ⟨size, h⟩
  obtain ⟨whole, fraction, hs, hwhole, hfraction, rfl⟩ := h
  have hread : Binary64.read? (signOf false ++ whole ++ pointed fraction) = some _ :=
    Binary64.read?_numeral hwhole (List.all_eq_true.mpr hfraction)
  have hrounds := Binary64.rounds_of_numeral hwhole (List.all_eq_true.mpr hfraction) hread
  rw [hrounds.unique hx] at hread
  refine readRaw_eq_ok.mpr ⟨s, hraw, hsize, ?_, ?_⟩
  · rw [htype]
    exact hspelled.accepts
  · rw [htype, Value.read?, hs]
    exact congrArg (Option.map Value.number) hread

/-- Whole numbers become the nearest doubles; other numbers are taken as they are, or not at all. -/
theorem readRaw_json_number {formats : Formats Pattern}
    (hformats : Config.defaultFormats.readPatterns = .ok formats) (htype : d.type = .number) :
    (∀ n : Nat, (toString (Json.Number.whole n)).length ≤ d.size →
      ∃ x, x.Rounds false n ∧ d.readRaw formats (.num (.whole n)) = .ok (.number x)) ∧
    ∀ x : Binary64, x.isFinite = true → x.negative = false →
      (toString (Json.Number.real x)).length ≤ d.size →
        (x.WrittenOut → d.readRaw formats (.num (.real x)) = .ok (.number x)) ∧
        (¬x.WrittenOut → d.readRaw formats (.num (.real x)) =
          .error (.typeMismatch d.name .number (toString (Json.Number.real x)))) := by
  obtain rfl := Except.ok.inj (hformats.symm.trans Formats.readPatterns_default)
  refine ⟨fun n hsize => ?_, fun x hfinite hsign hsize => ⟨fun hx => ?_, fun hx => ?_⟩⟩
  · have hdenotes := (Json.Number.toList_toString (.whole n)).symm ▸ Json.Number.denotes_toText_whole n
    have hrounds := Binary64.rounds_ofInt n
    exact ⟨.ofInt n, hrounds, readRaw_of_denotes htype rfl hsize hdenotes hrounds⟩
  · obtain ⟨size, hdenotes, hrounds⟩ :=
      Binary64.exists_denotes_toJsonText hsign (of_decide_eq_true hfinite) hx
    rw [← Json.Number.toText, ← Json.Number.toList_toString] at hdenotes
    exact readRaw_of_denotes htype rfl hsize hdenotes hrounds
  · have hother : ¬d.type.Spelled (toString (Json.Number.real x)).toList := by
      rw [htype, Json.Number.toList_toString, ColumnType.spelled_number_iff]
      rintro ⟨size, hdenotes⟩
      exact hdenotes.e_not_mem (Binary64.e_mem_toJsonText hx)
    rw [readRaw_of_not_spelled rfl hsize hother, htype]

/-- The whole number after `2^53`, and the least number that is written out. -/
theorem readRaw_json_number_bounds :
    let d : ColumnDecl := ⟨"n", .number, 16, false, false, false⟩
    ∃ formats, Config.defaultFormats.readPatterns = .ok formats ∧ d.type = .number ∧
      (∃ x : Binary64, x.Rounds false (9007199254740993 : Nat) ∧
        d.readRaw formats (.num (.whole (9007199254740993 : Nat))) = .ok (.number x)) ∧
      d.readRaw formats (.num (.real (.ofDecimal false 1 (-5)))) =
        .ok (.number (.ofDecimal false 1 (-5))) := by
  intro d
  obtain ⟨hwhole, hreal⟩ :=
    readRaw_json_number (d := d) Formats.readPatterns_default rfl
  refine ⟨_, Formats.readPatterns_default, rfl, hwhole 9007199254740993 (by decide +kernel), ?_⟩
  exact (hreal (.ofDecimal false 1 (-5)) (by decide +kernel) rfl (by decide +kernel)).1
    (by decide +kernel)

/-- A whole number and a small one that have room in the column and are refused for their exponents. The
same whole number is taken as a whole number. -/
theorem refused_exponents : ∃ formats, Config.defaultFormats.readPatterns = .ok formats ∧
    let d : ColumnDecl := ⟨"n", .number, 30, false, false, false⟩
    d.readRaw formats (.num (.real (.ofInt 10000000000000000))) =
      .error (.typeMismatch "n" .number "1e+16") ∧
    d.readRaw formats (.num (.whole 10000000000000000)) = .ok (.number (.ofInt 10000000000000000)) ∧
    d.readRaw formats (.num (.real (.ofDecimal false 1 (-6)))) =
      .error (.typeMismatch "n" .number "1e-6") :=
  ⟨Formats.defaultPatterns, Formats.readPatterns_default, by decide +kernel⟩

end ColumnDecl

end TypedTables
