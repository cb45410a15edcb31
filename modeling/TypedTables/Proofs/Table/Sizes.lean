import TypedTables.Proofs.Binary64.Numerals
import TypedTables.Proofs.Binary64.WholeLength
import TypedTables.Proofs.Database.Runs
import TypedTables.Proofs.Table.Origins

/-!
# Sizes of stored values

What a row supplies is measured as it is written, and what is counted on is not measured. So a stored
value is displayed in as many characters as its column allows, except where counting on needs a digit
more or starts from a fraction, and where a number is written shorter than it is displayed
(`Table.Unmeasured`).
-/

namespace TypedTables

theorem toInt_succ {i : Int64} (room : i < Int64.maxValue) : (i + 1).toInt = i.toInt + 1 := by
  have hlt := Int64.lt_iff_toInt_lt.mp room
  have hmin := Int64.le_toInt i
  have hmax : Int64.maxValue.toInt = 2 ^ 63 - 1 := rfl
  have hone : (1 : Int64).toInt = 1 := rfl
  rw [Int64.toInt_add, hone]
  exact Int.bmod_eq_of_le (by omega) (by omega)

theorem Value.Next.length_display {i : Int64} {v : Value} {size : Nat} (hsize : 0 < size)
    (h : (Value.integer i).Next v) (hi : (Value.integer i).display.length ≤ size) :
    v.display.length ≤ size ∨ i.toInt + 1 = 10 ^ size := by
  cases h with
  | integer room =>
    show (toString (i + 1).toInt).length ≤ size ∨ _
    rw [toInt_succ room]
    exact length_toString_succ hsize hi

theorem Value.Next.length_display_number {x : Binary64} {v : Value} {n size : Nat}
    (h : (Value.number x).Next v) (hx : x.IsWhole n)
    (hfits : (Value.number x).display.length ≤ size) :
    v.display.length ≤ size ∨ Binary64.nextWhole? n = some (10 ^ size) := by
  cases h with
  | number finite changed =>
    cases hnext : Binary64.nextWhole? n with
    | none =>
      rw [hx.addOne_eq_self hnext, hx.sameNumber_self] at changed
      cases changed
    | some m =>
      change (String.ofList x.toText).length ≤ size at hfits
      show (String.ofList x.addOne.toText).length ≤ size ∨ _
      rw [String.length_ofList] at hfits ⊢
      exact (hx.length_addOne hnext hfits).imp_right (congrArg some)

theorem ColumnDecl.length_firstCount (d : ColumnDecl) : d.firstCount.display.length = 1 := by
  unfold firstCount
  split
  · decide +kernel
  · decide +kernel

namespace Table

variable {config : Config} {t : Table} {i k : Nat} {d : ColumnDecl} {v : Value}

/-- How a value comes to be displayed in more characters than its column allows. -/
inductive Unmeasured (t : Table) (i k : Nat) (d : ColumnDecl) : Value → Prop where
  /-- It is one more than the whole number above it, which is too long already or consists of as many
  nines as the column allows. -/
  | counted {j : Nat} {n : Int64} {v : Value} (auto : d.autoincrement = true) (below : i = j + 1)
    (before : t.value? j k = some (.integer n)) (next : (Value.integer n).Next v)
    (full : d.size < (Value.integer n).display.length ∨ n.toInt + 1 = 10 ^ d.size) :
    Unmeasured t i k d v
  /-- It is one more than the number above it, which is too long already, is no whole number (one more
  than `0.57` is `1.5699999999999998`), or leads to ten to the power of what the column allows. -/
  | countedNumber {j : Nat} {x : Binary64} {v : Value} (auto : d.autoincrement = true)
    (below : i = j + 1) (before : t.value? j k = some (.number x))
    (next : (Value.number x).Next v)
    (full : d.size < (Value.number x).display.length ∨ (∀ n, ¬x.IsWhole n) ∨
      ∃ n, x.IsWhole n ∧ Binary64.nextWhole? n = some (10 ^ d.size)) :
    Unmeasured t i k d v
  /-- It is a number that a row supplies, in another form than digits with or without a fraction, or
  one that is rounded up to the next power of ten. -/
  | supplied {text : String} {x : Binary64} (number : d.type = .number)
    (reads : d.ReadsFrom t.formats text (.number x))
    (rounded : Literal.isNumeral text.toList = true → Binary64.RoundedUp text.toList x) :
    Unmeasured t i k d (.number x)

theorem Origin.fits_or_unmeasured (h : t.Origin i k d v) (hsize : 1 ≤ d.size) :
    v.display.length ≤ d.size ∨ t.Unmeasured i k d v := by
  cases h with
  | @supplied text v reads =>
    by_cases hnumber : d.type = .number
    · have hread := reads.reads
      rw [hnumber] at hread
      obtain ⟨x, hx, rfl⟩ := Option.map_eq_some_iff.mp hread
      by_cases hnumeral : Literal.isNumeral text.toList = true
      · rcases Binary64.length_toText_of_isNumeral hnumeral hx with hlength | hrounded
        · left
          rw [String.length_toList] at hlength
          show (String.ofList x.toText).length ≤ d.size
          rw [String.length_ofList]
          exact hlength.trans reads.short
        · exact .inr (.supplied hnumber reads fun _ => hrounded)
      · exact .inr (.supplied hnumber reads fun h => absurd h hnumeral)
    · exact .inl (Nat.le_trans (Value.length_display_of_read? reads.reads hnumber) reads.short)
  | first => exact .inl (by rwa [ColumnDecl.length_firstCount])
  | @counted j w v auto below before next =>
    cases w with
    | integer n =>
      rcases Nat.lt_or_ge d.size (Value.integer n).display.length with hlong | hfits
      · exact .inr (.counted auto below before next (.inl hlong))
      · exact (next.length_display hsize hfits).imp_right fun hnines =>
          .counted auto below before next (.inr hnines)
    | number x =>
      rcases Nat.lt_or_ge d.size (Value.number x).display.length with hlong | hfits
      · exact .inr (.countedNumber auto below before next (.inl hlong))
      · by_cases hwhole : ∃ n, x.IsWhole n
        · obtain ⟨n, hx⟩ := hwhole
          exact (next.length_display_number hx hfits).imp_right fun hpower =>
            .countedNumber auto below before next (.inr (.inr ⟨n, hx, hpower⟩))
        · exact .inr (.countedNumber auto below before next (.inr (.inl (not_exists.mp hwhole))))
    | _ => cases next
  | left => exact .inl (Nat.zero_le _)

end Table

namespace Database

variable {config : Config} {db : Database} {name : String} {t : Table} {i k : Nat}
  {d : ColumnDecl} {v : Value}

theorem one_le_minSize_of_new (h : new config = .ok db) : 1 ≤ db.config.minSize := by
  rw [(new_eq_ok h).1]
  obtain ⟨_, hsizes, -⟩ := Outcome.bind_eq_ok.mp h
  unfold Config.requireSizes at hsizes
  split at hsizes
  · cases hsizes
  · omega

/-- Whatever commands are run on a database without tables, each value that a table holds is displayed
in as many characters as its column allows, or is one of those that are not measured so. -/
theorem fits_or_unmeasured_of_run (hempty : db.tables = ∅) (hmin : 1 ≤ db.config.minSize)
    (commands : List Command)
    (ht : (db.run commands).table? name = some t) (hd : t.schema.columns[k]? = some d)
    (hv : t.value? i k = some v) : v.display.length ≤ d.size ∨ t.Unmeasured i k d v := by
  have hreach := ((governed_of_empty hempty).run commands).tables name t ht
  have hvalid := hreach.sound.schema.columns d (List.mem_of_getElem? hd)
  have hsize := hvalid.size.1
  exact (hreach.origin hd hv).fits_or_unmeasured (by omega)

/-- An id of one digit that is the greatest, a number with sixteen nines, and a row without anything. -/
def nineIds : List Command :=
  [.createWith "ids" [⟨"id", .integer, 1, false, false, true⟩, ⟨"x", .number, 16, false, false, false⟩],
    .insert "ids" (.positional [.str "9", .str "9999999999999999"]),
    .insert "ids" (.positional [])]

/-- The id after nine. -/
theorem fits_or_unmeasured_of_run_ten : ∃ db t, new .default = .ok db ∧
    (db.run nineIds).table? "ids" = some t ∧
    (t.schema.columns[0]? = some ⟨"id", .integer, 1, false, false, true⟩ ∧
      t.value? 1 0 = some (.integer 10)) ∧
    ((Value.integer 10).display.length ≤ 1 ∨
      t.Unmeasured 1 0 ⟨"id", .integer, 1, false, false, true⟩ (.integer 10)) :=
  exists_table_of_run
    (fun t => decide (t.schema.columns[0]? = some ⟨"id", .integer, 1, false, false, true⟩ ∧
      t.value? 1 0 = some (.integer 10)))
    (by decide +kernel) fun db t hdb ht htest => by
      have htest := of_decide_eq_true htest
      exact ⟨htest, fits_or_unmeasured_of_run (new_eq_ok hdb).2 (one_le_minSize_of_new hdb) _ ht
        htest.1 htest.2⟩

/-- The id after nine does not fit, and a number with sixteen nines is displayed with seventeen
digits. -/
theorem overlong_ids : ∃ db t, new .default = .ok db ∧
    (db.run nineIds).table? "ids" = some t ∧
    t.schema.columns.map ColumnDecl.size = [1, 16] ∧
    (t.value? 1 0).map (·.display.length) = some 2 ∧
    (t.value? 0 1).map (·.display.length) = some 17 :=
  exists_table_of_run
    (fun t => decide (t.schema.columns.map ColumnDecl.size = [1, 16] ∧
      (t.value? 1 0).map (·.display.length) = some 2 ∧
      (t.value? 0 1).map (·.display.length) = some 17))
    (by decide +kernel) fun _ _ _ _ htest => of_decide_eq_true htest

end Database

end TypedTables
