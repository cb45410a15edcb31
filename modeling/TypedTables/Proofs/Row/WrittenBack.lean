import TypedTables.Proofs.Row.JsonNumbers

/-!
# Values written back

What becomes of a value of a column when the text that shows it is supplied for the column again
(`ColumnDecl.WrittenBack`). It is read as the value that it shows, unless it shows infinity, or a number that
was rounded up to a power of ten and has become too long for the column.
-/

namespace TypedTables

open Text

variable {d : ColumnDecl} {type : ColumnType} {s : String} {v : Value} {x : Binary64}

/-! ## Values that are no numbers -/

theorem toList_toString_of_digitsValue {n : Int} {ds : List Char} (h : n = digitsValue ds) :
    (toString n).toList = Nat.toDigits 10 (digitsValue ds) := by
  rw [h]
  exact Nat.toList_repr

/-- A value of any type but number is shown by a text of its type that it is read from. -/
theorem Value.read?_display (htype : type ≠ .number)
    (haccepts : Formats.defaultPatterns.accepts type s = true) (hread : read? type s = some v) :
    type.Spelled v.display.toList ∧ read? type v.display = some v := by
  have hspelled := spelled_of_read? haccepts hread
  have hsame : v.display = s → type.Spelled v.display.toList ∧ read? type v.display = some v := by
    intro h
    rw [h]
    exact ⟨hspelled, hread⟩
  cases type with
  | text =>
    cases hread
    exact hsame rfl
  | number => exact absurd rfl htype
  | integer =>
    obtain ⟨i, hi, rfl⟩ := Option.map_eq_some_iff.mp hread
    generalize s.toList = ds at hspelled hi
    cases hspelled with
    | integer digits fits =>
      obtain ⟨i', hi', hvalue⟩ := Formats.readInt64?_digits digits fits
      obtain rfl := Option.some.inj (hi.symm.trans hi')
      have htext : (display (.integer i)).toList = _ := toList_toString_of_digitsValue hvalue
      rw [← digitsValue_toDigits (digitsValue ds)] at fits hvalue
      have hdigits := isDigits_toDigits (digitsValue ds)
      obtain ⟨i', hi', hvalue'⟩ := Formats.readInt64?_digits hdigits fits
      obtain rfl : i = i' := Int64.toInt_inj.mp (hvalue.trans hvalue'.symm)
      rw [read?, htext, hi']
      exact ⟨.integer hdigits fits, rfl⟩
  | boolean =>
    obtain ⟨b, hb, rfl⟩ := Option.map_eq_some_iff.mp hread
    refine hsame ?_
    generalize hw : s.toList = w at hspelled
    cases hspelled with
    | boolean b' =>
      obtain rfl : s = toString b' := String.toList_inj.mp hw
      have hb' : readBool? (toString b') = some b' := by cases b' <;> rfl
      rw [← Option.some.inj (hb.symm.trans hb')]
      rfl
  | time =>
    obtain ⟨_, -, rfl⟩ := Option.map_eq_some_iff.mp hread
    exact hsame rfl
  | date =>
    obtain ⟨_, -, rfl⟩ := Option.map_eq_some_iff.mp hread
    exact hsame rfl

namespace ColumnDecl

/-! ## What is read again -/

/-- What the text that shows a value is read as, if the value was read from another text. -/
inductive WrittenBack (d : ColumnDecl) (text : String) : Value → Except RowError Value → Prop where
  /-- The value again. -/
  | same {v : Value} (finite : v ≠ .number (.infinity false)) (short : v.display.length ≤ d.size) :
    WrittenBack d text v (.ok v)
  /-- The number is beyond the doubles, and infinity is shown by a word. -/
  | infinite (number : d.type = .number) : WrittenBack d text (.number (.infinity false))
      (.error (.typeMismatch d.name .number "inf"))
  /-- The number has as many digits as the column allows, and is rounded up to the power of ten after
  them. -/
  | roundedUp {x : Binary64} (number : d.type = .number) (digits : isDigits text.toList = true)
    (full : text.length = d.size) (shown : x.toText = '1' :: List.replicate d.size '0') :
    WrittenBack d text (.number x) (.error (.tooLong d.name d.size (d.size + 1)))

theorem readRaw_of_long {raw : Json} {formats : Formats Pattern} (hraw : rawText? raw = some s)
    (hlong : d.size < s.length) :
    d.readRaw formats raw = .error (.tooLong d.name d.size s.length) := by
  rw [readRaw, hraw]
  dsimp only
  rw [if_pos hlong]

theorem writtenBack_of_ne_number (htype : d.type ≠ .number)
    (h : d.ReadsFrom Formats.defaultPatterns s v) :
    d.WrittenBack s v (d.readRaw Formats.defaultPatterns (.str v.display)) := by
  have hshort := (Value.length_display_of_read? h.reads htype).trans h.short
  obtain ⟨hspelled, hread⟩ := Value.read?_display htype h.accepted h.reads
  rw [readRaw_eq_ok.mpr ⟨v.display, rfl, hshort, hspelled.accepts, hread⟩]
  refine .same ?_ hshort
  rintro rfl
  obtain ⟨v, hv, hkind, -⟩ := hspelled.exists_read?
  rw [hread] at hv
  cases hv
  exact htype (Option.some.inj hkind).symm

theorem readRaw_display_number (htype : d.type = .number) (hsign : x.negative = false)
    (hfinite : x.magnitude < Binary64.infinite) (hshort : (Value.number x).display.length ≤ d.size) :
    d.readRaw Formats.defaultPatterns (.str (Value.number x).display) = .ok (.number x) := by
  obtain ⟨size, hdenotes, hrounds⟩ := Binary64.exists_denotes_toText hsign hfinite
  have htext : (Value.number x).display.toList = x.toText := String.toList_ofList
  exact readRaw_of_denotes htype rfl hshort (htext ▸ hdenotes) hrounds

theorem readRaw_display_infinity (htype : d.type = .number) (hsize : 3 ≤ d.size) :
    d.readRaw Formats.defaultPatterns (.str (Value.number (.infinity false)).display) =
      .error (.typeMismatch d.name .number "inf") := by
  have hshown : (Value.number (.infinity false)).display = "inf" := by decide +kernel
  have hother : ¬d.type.Spelled "inf".toList := by
    rw [htype, ColumnType.spelled_number_iff]
    rintro ⟨size, whole, fraction, hinf, hwhole, -⟩
    obtain ⟨hne, hdigits⟩ := isDigits_iff.mp hwhole
    obtain ⟨c, cs, rfl⟩ := List.exists_cons_of_ne_nil hne
    obtain rfl : 'i' = c := (List.cons.inj hinf).1
    exact absurd (hdigits 'i' (List.mem_cons_self ..)) (by decide)
  rw [hshown, readRaw_of_not_spelled (s := "inf") rfl hsize hother, htype]

theorem writtenBack_of_number (htype : d.type = .number)
    (h : d.ReadsFrom Formats.defaultPatterns s v) :
    d.WrittenBack s v (d.readRaw Formats.defaultPatterns (.str v.display)) := by
  have hspelled := spelled_of_read? h.accepted h.reads
  have hread := h.reads
  have hshort := h.short
  rw [htype] at hspelled hread
  obtain ⟨x, hx, rfl⟩ := Option.map_eq_some_iff.mp hread
  obtain ⟨size, whole, fraction, hs, hwhole, hfraction, -⟩ := ColumnType.spelled_number_iff.mp hspelled
  have hall := List.all_eq_true.mpr hfraction
  have hx : Binary64.read? (signOf false ++ whole ++ pointed fraction) = some x := hs ▸ hx
  have hrounds := Binary64.rounds_of_numeral hwhole hall hx
  have hlike := Binary64.displayedLike_ofDecimal false hwhole hall
  rw [← Option.some.inj (hx.symm.trans (Binary64.read?_numeral hwhole hall))] at hlike
  have hlength : (Value.number x).display.length = x.toText.length := String.length_ofList
  rw [← String.length_toList, hs] at hshort
  by_cases hfinite : x.magnitude < Binary64.infinite
  · by_cases hfits : x.toText.length ≤ d.size
    · rw [← hlength] at hfits
      rw [readRaw_display_number htype hrounds.sign hfinite hfits]
      refine .same ?_ hfits
      rintro ⟨⟩
      exact absurd hfinite (by decide)
    · rcases hlike with hle | ⟨rfl, hshown⟩
      · exact absurd (hle.trans hshort) hfits
      · -- The digits fill the column, and the power of ten has one more.
        have hdigits : s.toList = whole := hs.trans (List.append_nil whole)
        have htext : x.toText.length = whole.length + 1 := by
          rw [hshown]
          simp [signOf]
        have hfull : whole.length = d.size := by
          rw [pointed, List.append_nil] at hshort
          omega
        rw [readRaw_of_long rfl (by omega), hlength, htext, hfull]
        refine .roundedUp htype (by rwa [hdigits]) (by rw [← String.length_toList, hdigits, hfull]) ?_
        rw [hshown, hfull]
        rfl
  · obtain rfl : x = .infinity false := Binary64.eq_of_magnitude_eq hrounds.sign
      (Nat.le_antisymm hrounds.nearest.le (Nat.not_lt.mp hfinite))
    have hword : (Binary64.infinity false).toText = ['i', 'n', 'f'] := by decide +kernel
    rcases hlike with hle | ⟨-, hshown⟩
    · rw [readRaw_display_infinity htype (by rw [hword] at hle; exact hle.trans hshort)]
      exact .infinite htype
    · rw [hword] at hshown
      cases hshown

/-- Under the default patterns a value is read again from the text that shows it, unless it is infinity, or
was rounded up and has become too long. -/
theorem writtenBack_of_readRaw {formats : Formats Pattern} {raw : Json} {text : String}
    (hformats : Config.defaultFormats.readPatterns = .ok formats) (htext : rawText? raw = some text)
    (h : d.readRaw formats raw = .ok v) : d.WrittenBack text v (d.readRaw formats (.str v.display)) := by
  obtain rfl := Except.ok.inj (hformats.symm.trans Formats.readPatterns_default)
  obtain ⟨text', htext', hreads⟩ := readRaw_eq_ok.mp h
  obtain rfl := Option.some.inj (htext.symm.trans htext')
  by_cases hnumber : d.type = .number
  · exact writtenBack_of_number hnumber hreads
  · exact writtenBack_of_ne_number hnumber hreads

/-- A number that loses its zeros and its last digit. -/
theorem writtenBack_of_readRaw_zeros :
    let d : ColumnDecl := ⟨"n", .number, 18, false, false, false⟩
    let v : Value := .number (.ofInt 9007199254740992)
    ∃ formats, Config.defaultFormats.readPatterns = .ok formats ∧
      rawText? (.str "009007199254740993") = some "009007199254740993" ∧
      d.readRaw formats (.str "009007199254740993") = .ok v ∧ v.display = "9007199254740992" ∧
      d.readRaw formats (.str "9007199254740992") = .ok v ∧
      d.WrittenBack "009007199254740993" v (d.readRaw formats (.str v.display)) := by
  intro d v
  have hread : d.readRaw Formats.defaultPatterns (.str "009007199254740993") = .ok v := by
    decide +kernel
  exact ⟨_, Formats.readPatterns_default, rfl, hread, by decide +kernel, by decide +kernel,
    writtenBack_of_readRaw Formats.readPatterns_default rfl hread⟩

/-- Sixteen nines are shown with seventeen digits, and `10^309` as infinity. Neither text is taken by the
column that has the number. -/
theorem refused_when_written_back : ∃ formats, Config.defaultFormats.readPatterns = .ok formats ∧
    let a : ColumnDecl := ⟨"a", .number, 16, false, false, false⟩
    let b : ColumnDecl := ⟨"b", .number, 310, false, false, false⟩
    let v : Value := .number (.ofInt 10000000000000000)
    let w : Value := .number (.infinity false)
    (a.readRaw formats (.str "9999999999999999") = .ok v ∧
      a.readRaw formats (.str v.display) = .error (.tooLong "a" 16 17)) ∧
    b.readRaw formats (.str (String.ofList ('1' :: List.replicate 309 '0'))) = .ok w ∧
      b.readRaw formats (.str w.display) = .error (.typeMismatch "b" .number "inf") := by
  refine ⟨_, Formats.readPatterns_default, by decide +kernel, ?_, readRaw_display_infinity rfl (by decide)⟩
  -- The search in a text of this length is not run, its outcome is known.
  have hdigits : isDigits ('1' :: List.replicate 309 '0') = true := by decide +kernel
  have hvalue := Binary64.digitsValue_append ['1'] (List.replicate 309 '0')
  rw [digitsValue_replicate, List.length_replicate] at hvalue
  have hspelled : ColumnType.number.Spelled (String.ofList ('1' :: List.replicate 309 '0')).toList := by
    rw [String.toList_ofList]
    exact ColumnType.spelled_number_iff.mpr ⟨_, Binary64.denotes_of_whole hdigits⟩
  have hread : Binary64.read? ('1' :: List.replicate 309 '0') = some (.infinity false) := by
    have hnumeral : Binary64.read? (signOf false ++ ('1' :: List.replicate 309 '0') ++ pointed []) = _ :=
      Binary64.read?_numeral hdigits rfl
    rw [show signOf false ++ ('1' :: List.replicate 309 '0') ++ pointed [] =
      '1' :: List.replicate 309 '0' from List.append_nil _] at hnumeral
    rw [hnumeral, List.append_nil, ← List.singleton_append, hvalue]
    decide +kernel
  refine readRaw_eq_ok.mpr ⟨_, rfl, ?_, hspelled.accepts, ?_⟩
  · rw [String.length_ofList, List.length_cons, List.length_replicate]
  · rw [Value.read?, String.toList_ofList, hread]
    rfl

end ColumnDecl

end TypedTables
