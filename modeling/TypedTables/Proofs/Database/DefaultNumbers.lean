import TypedTables.Proofs.Binary64.Plain
import TypedTables.Proofs.Database.Runs
import TypedTables.Proofs.Pattern.Anchored
import TypedTables.Proofs.Table.Origins

/-!
# Numbers under the default patterns

A database reads its patterns once, and all its tables check rows with them. The default pattern of
numbers asks for a decimal digit first. So no command brings a number into a table that has a minus
or is none: it is read from such a text, or counted on from one.
-/

namespace TypedTables

open Text

namespace Database

variable {config : Config} {db db' : Database} {name : String} {t : Table}

/-! ## The patterns of a database -/

/-- All tables check rows with these patterns, and new ones will. -/
structure ChecksWith (formats : Formats Pattern) (db : Database) : Prop where
  own : db.formats = formats
  tables : ∀ name t, db.table? name = some t → t.formats = formats

theorem checksWith_new (h : new config = .ok db) :
    config.formats.readPatterns = .ok db.formats ∧ db.ChecksWith db.formats := by
  obtain ⟨_, -, h⟩ := Outcome.bind_eq_ok.mp h
  obtain ⟨formats, hformats, h⟩ := Outcome.bind_eq_ok.mp h
  cases h
  refine ⟨hformats, rfl, ?_⟩
  intro name t ht
  simp [table?] at ht

variable {formats : Formats Pattern}

theorem ChecksWith.put (h : db.ChecksWith formats) (ht : t.formats = formats) :
    (db.put name t).ChecksWith formats := by
  refine ⟨h.own, ?_⟩
  intro other t' ht'
  rw [table?_put] at ht'
  split at ht'
  · cases ht'
    exact ht
  · exact h.tables other t' ht'

theorem ChecksWith.effect (h : db.ChecksWith formats) (he : db.Effect db') :
    db'.ChecksWith formats := by
  cases he with
  | keep => exact h
  | create _ _ => exact h.put h.own
  | drop name =>
    refine ⟨h.own, ?_⟩
    intro other t ht
    rw [table?_erase] at ht
    split at ht
    · cases ht
    · exact h.tables other t ht
  | insert found input => exact h.put ((Table.formats_insert _ input).trans (h.tables _ _ found))

theorem ChecksWith.run (h : db.ChecksWith formats) (commands : List Command) :
    (db.run commands).ChecksWith formats := by
  induction commands generalizing db with
  | nil => exact h
  | cons command commands ih => exact ih (h.effect (db.execute_effect command))

end Database

/-! ## The default pattern of numbers -/

/-- The default pattern of numbers asks for the start and then for a decimal digit. -/
theorem Formats.exists_default_number {formats : Formats Pattern}
    (h : Config.defaultFormats.readPatterns = .ok formats) :
    ∃ p : Pattern, p.BeginsWith decimalDigits ∧ formats.number = .seq .start p := by
  obtain ⟨number, hnumber, h⟩ := Outcome.bind_eq_ok.mp h
  obtain ⟨_, -, h⟩ := Outcome.bind_eq_ok.mp h
  obtain ⟨_, -, h⟩ := Outcome.bind_eq_ok.mp h
  obtain ⟨_, -, h⟩ := Outcome.bind_eq_ok.mp h
  obtain ⟨_, -, h⟩ := Outcome.bind_eq_ok.mp h
  cases h
  have hread : Pattern.read? Config.defaultFormats.number =
      some (.seq .start (.seq (.plus (.one decimalDigits))
        (.seq (.copies (.seq (.one (.single '.')) (.plus (.one decimalDigits))) 0 1) .finish))) := by
    decide +kernel
  rw [readPattern, hread] at hnumber
  cases hnumber
  exact ⟨_, (Pattern.beginsWith_one decimalDigits).plus.seq _, rfl⟩

theorem ColumnDecl.ReadsFrom.plain {d : ColumnDecl} {formats : Formats Pattern} {text : String}
    {x : Binary64} (h : d.ReadsFrom formats text (.number x)) (htype : d.type = .number)
    (hformats : Config.defaultFormats.readPatterns = .ok formats) : x.Plain := by
  obtain ⟨p, hp, hnumber⟩ := Formats.exists_default_number hformats
  have haccepted := h.accepted
  have hreads := h.reads
  rw [htype] at haccepted hreads
  have hfound : (Pattern.seq .start p).isFoundIn text.toList = true := by
    rw [← hnumber]
    exact haccepted
  obtain ⟨c, s, htext, hc⟩ := hp.exists_of_isFoundIn hfound
  rw [Value.read?, htext] at hreads
  obtain ⟨y, hy, heq⟩ := Option.map_eq_some_iff.mp hreads
  cases heq
  exact Binary64.plain_of_read? hc hy

/-! ## Stored numbers -/

namespace Table

variable {config : Config} {t : Table} {i k : Nat} {d : ColumnDecl} {x : Binary64}

/-- Under the default patterns the numbers that a table holds are plain, row by row. -/
theorem Reachable.plain (h : t.Reachable config)
    (hformats : Config.defaultFormats.readPatterns = .ok t.formats)
    (hd : t.schema.columns[k]? = some d) (htype : d.type = .number)
    (hv : t.value? i k = some (.number x)) : x.Plain := by
  induction i using Nat.strong_induction_on generalizing x with
  | _ i ih =>
    have horigin := h.origin hd hv
    generalize hw : Value.number x = w at horigin
    cases horigin with
    | supplied reads =>
      subst hw
      exact reads.plain htype hformats
    | first auto top =>
      rw [ColumnDecl.firstCount, if_pos htype] at hw
      cases hw
      exact Binary64.plain_ofInt (by decide)
    | counted auto below before next =>
      subst hw
      cases next with
      | number finite changed => exact (ih _ (by omega) before).addOne
    | left required auto => cases hw

end Table

end TypedTables
