import TypedTables.Condition.WhereClause
import TypedTables.Proofs.Condition.ConditionGrammar

/-!
# Conditions without the blanks around them

Reading a condition passes over the blanks at both ends of its text, so the text without them is read
as the same condition or refused for the same reason, except that a complaint which quotes the whole
text quotes the one that was read. A join word is refused in this way, for it is all name.
-/

namespace TypedTables

open Text

/-- The complaint about another text that differs in nothing that matters. -/
def ConditionError.inText (text : String) : ConditionError → ConditionError
  | malformed _ => malformed text
  | e => e

namespace WrittenCondition

variable {b s : List Char} {text other key : String}

/-! ## Blanks at the end -/

theorem isNameStart_of_isBlank {c : Char} (h : isBlank c = true) : isNameStart c = false :=
  disjoint_kinds_symm (p := isNameStart)
    (fun _ hc => isBlank_of_isNameChar (isNameChar_of_isNameStart hc)) h

theorem inText_of_literal_read {e : ConditionError} (h : Literal.read s = .error e) :
    e.inText other = e := by
  unfold Literal.read at h
  split at h
  · cases h
  · cases h
    rfl

theorem readRest_append (key : String) (s : List Char) (hb : AllBlank b) :
    readRest (.malformed other) key s =
      (readRest (.malformed text) key (s ++ b)).mapError (·.inText other) := by
  obtain ⟨b', hb', htrim⟩ := exists_trimStart_append s hb
  have hstops : Stops Comparator.isSymbolChar b' :=
    stops_of_forall fun c hc => isSymbolChar_of_isBlank (hb' c hc)
  unfold readRest
  rw [htrim]
  dsimp only
  rw [takeWhile_append_of_stops _ hstops, dropWhile_append_of_stops _ hstops,
    trim_append_blank _ hb']
  split
  · rfl
  · split
    · rfl
    · cases hread : Literal.read (trim ((trimStart s).dropWhile Comparator.isSymbolChar)) with
      | ok literal => rfl
      | error e => exact congrArg Except.error (inText_of_literal_read hread).symm

/-! ## Blanks at both ends -/

theorem read_trimmed (text : String) :
    read (trimmed text.toList) = (read text).mapError (·.inText (trimmed text.toList)) := by
  obtain ⟨a, t, b, heq, ha, hb, ht⟩ := exists_trim text.toList
  have htrim : trim text.toList = t := by rw [heq, trim_append ha hb ht]
  obtain ⟨b', hb', hfront⟩ := exists_trimStart_append t hb
  have hblank : trimStart (a ++ (t ++ b)) = trimStart (t ++ b) := List.dropWhile_append_of_pos ha
  have hbare : trimStart t = t := dropWhile_of_stops ht.1
  -- What is left at the end begins no name, so it does not matter if nothing stands before it.
  have hhead : (t ++ b').head?.any isNameStart = t.head?.any isNameStart := by
    cases t with
    | nil =>
      cases b' with
      | nil => rfl
      | cons c b' => exact isNameStart_of_isBlank (hb' c (List.mem_cons_self ..))
    | cons c t => rfl
  have hstops : Stops isNameChar b' := stops_of_forall fun c hc => isNameChar_of_isBlank (hb' c hc)
  unfold read
  rw [trimmed, htrim, String.toList_ofList, heq, hblank, hfront, hbare]
  dsimp only
  rw [hhead, takeWhile_append_of_stops _ hstops, dropWhile_append_of_stops _ hstops]
  split
  · exact readRest_append _ _ hb'
  · rfl

/-- A complaint that quotes a whole text quotes the one that is read. -/
theorem eq_of_read_malformed (h : read text = .error (.malformed other)) : other = text := by
  rcases exists_writes_or_fault text with ⟨c, hc⟩ | ⟨e, he⟩
  · rw [hc.read_eq] at h
    cases h
  · rw [he.read_eq] at h
    cases h
    cases he <;> rfl

/-! ## Join words -/

theorem isNameChar_of_toLower {c : Char} (h : c.toLower.isAlpha = true) : isNameChar c = true := by
  have halpha : c.isAlpha = true := by
    unfold Char.toLower at h
    split at h
    · next hupper => exact isAlpha_iff.mpr (.inl hupper)
    · exact h
  simp [isNameChar, Char.isAlphanum, halpha]

theorem isNameChar_of_sameIgnoringCase {word : String}
    (hword : (word.toList.map Char.toLower).all Char.isAlpha = true)
    (h : sameIgnoringCase word text = true) : ∀ c ∈ text.toList, isNameChar c = true := by
  have hlower : text.toList.map Char.toLower = word.toList.map Char.toLower := by
    have heq := congrArg String.toList (beq_iff_eq.mp h)
    simpa [lower] using heq.symm
  intro c hc
  have hmem : c.toLower ∈ word.toList.map Char.toLower := hlower ▸ List.mem_map_of_mem hc
  exact isNameChar_of_toLower (List.all_eq_true.mp hword _ hmem)

theorem isNameChar_of_ofWord? {j : JoinWord} (h : JoinWord.ofWord? text = some j) :
    ∀ c ∈ text.toList, isNameChar c = true := by
  have hword : (j.word.toList.map Char.toLower).all Char.isAlpha = true := by
    cases j <;> rfl
  exact isNameChar_of_sameIgnoringCase hword
    (List.find?_some (p := fun j : JoinWord => sameIgnoringCase j.word text) h)

/-- A join word writes no condition: there is no comparator after the name. -/
theorem read_of_ofWord? {j : JoinWord} (h : JoinWord.ofWord? text = some j) :
    read text = .error (.malformed text) := by
  have hstart : ∀ c ∈ trimStart text.toList, isNameChar c = true := fun c hc =>
    isNameChar_of_ofWord? h c ((List.dropWhile_suffix _).subset hc)
  have hrest : (trimStart text.toList).dropWhile isNameChar = [] :=
    List.dropWhile_eq_nil_iff.mpr hstart
  unfold read
  dsimp only
  rw [hrest]
  split <;> rfl

theorem ofWord?_eq_none_of_read {parts : WrittenCondition} (h : read text = .ok parts) :
    JoinWord.ofWord? text = none := by
  rw [Option.eq_none_iff_forall_ne_some]
  intro j hj
  rw [read_of_ofWord? hj] at h
  cases h

end WrittenCondition

/-! ## Conditions of a schema -/

namespace Condition

variable {s : Schema} {text : String}

theorem read_trimmed (s : Schema) (text : String) :
    read s (trimmed text.toList) = (read s text).mapError (·.inText (trimmed text.toList)) := by
  unfold read
  rw [WrittenCondition.read_trimmed]
  cases WrittenCondition.read text with
  | error e => rfl
  | ok parts =>
    simp only [Except.mapError, Outcome.ok_bind]
    cases s.position? parts.key <;> rfl

theorem eq_of_read_malformed {other : String} (h : read s text = .error (.malformed other)) :
    other = text := by
  unfold read at h
  cases hread : WrittenCondition.read text with
  | error e =>
    rw [hread] at h
    cases h
    exact WrittenCondition.eq_of_read_malformed hread
  | ok parts =>
    rw [hread, Outcome.ok_bind] at h
    split at h <;> cases h

theorem read_of_ofWord? {j : JoinWord} (h : JoinWord.ofWord? (trimmed text.toList) = some j) :
    read s text = .error (.malformed text) := by
  have htrimmed := WrittenCondition.read_of_ofWord? h
  rw [WrittenCondition.read_trimmed] at htrimmed
  unfold read
  cases hread : WrittenCondition.read text with
  | ok parts =>
    rw [hread] at htrimmed
    cases htrimmed
  | error e =>
    rw [hread] at htrimmed
    cases e with
    | malformed other => rw [WrittenCondition.eq_of_read_malformed hread, Outcome.error_bind]
    | _ => cases htrimmed

end Condition

/-! ## Clauses of one item -/

/-- A clause of one item is one condition, which the item writes if it is no join word. -/
theorem WhereClause.read_one (s : Schema) (item : String) :
    WhereClause.read s [item] =
      match JoinWord.ofWord? (trimmed item.toList) with
      | some j => .error (.danglingOperator j.word)
      | none => (Condition.read s (trimmed item.toList)).map fun c => ⟨[c], [], []⟩ := by
  rw [WhereClause.read, List.foldlM_cons]
  unfold PartialClause.item
  dsimp only
  cases JoinWord.ofWord? (trimmed item.toList) with
  | some j => cases j <;> rfl
  | none => cases Condition.read s (trimmed item.toList) <;> rfl

/-- The complaints about a text as a condition and as the only item of a clause: a join word has
nothing to join, and a text without a comparator is quoted with the blanks around it or without. -/
inductive RefusedAlike (text : String) : ConditionError → ConditionError → Prop where
  | joinWord {j : JoinWord} (word : JoinWord.ofWord? (trimmed text.toList) = some j) :
    RefusedAlike text (.malformed text) (.danglingOperator j.word)
  | malformed (other : JoinWord.ofWord? (trimmed text.toList) = none) :
    RefusedAlike text (.malformed text) (.malformed (trimmed text.toList))
  | same {e : ConditionError} (other : JoinWord.ofWord? (trimmed text.toList) = none)
    (unquoted : ∀ quoted, e ≠ .malformed quoted) : RefusedAlike text e e

/-- A text says the same as a condition and as the only item of a clause. -/
structure Condition.AgreesWithClause (s : Schema) (text : String) : Prop where
  accepted : ∀ row, (∃ b, readAndHolds s row text = .ok b) ↔ ∃ t, WhereClause.read s [text] = .ok t
  same : ∀ t, WhereClause.read s [text] = .ok t → ∀ row, readAndHolds s row text = .ok (t.holds row)
  refused : ∀ row e e', readAndHolds s row text = .error e →
    WhereClause.read s [text] = .error e' → RefusedAlike text e e'

namespace Condition

variable {s : Schema} {text : String} {c : Condition} {e : ConditionError}

theorem readAndHolds_of_read (h : read s text = .ok c) (row : Row) :
    readAndHolds s row text = .ok (c.holds row) := by
  rw [readAndHolds, h]
  rfl

theorem readAndHolds_of_error (h : read s text = .error e) (row : Row) :
    readAndHolds s row text = .error e := by
  rw [readAndHolds, h]
  rfl

theorem clause_of_read (h : read s text = .ok c) :
    WhereClause.read s [text] = .ok ⟨[c], [], []⟩ := by
  have hword : JoinWord.ofWord? (trimmed text.toList) = none := by
    cases hj : JoinWord.ofWord? (trimmed text.toList) with
    | none => rfl
    | some j =>
      rw [read_of_ofWord? hj] at h
      cases h
  rw [WhereClause.read_one, hword, read_trimmed, h]
  rfl

theorem clause_of_error (h : read s text = .error e) :
    ∃ e', WhereClause.read s [text] = .error e' ∧ RefusedAlike text e e' := by
  cases hj : JoinWord.ofWord? (trimmed text.toList) with
  | some j =>
    rw [read_of_ofWord? hj] at h
    cases h
    exact ⟨_, by rw [WhereClause.read_one, hj], .joinWord hj⟩
  | none =>
    have hread : WhereClause.read s [text] = .error (e.inText (trimmed text.toList)) := by
      rw [WhereClause.read_one, hj, read_trimmed, h]
      rfl
    refine ⟨_, hread, ?_⟩
    cases e with
    | malformed quoted =>
      obtain rfl := eq_of_read_malformed h
      exact .malformed hj
    | _ => exact .same hj fun _ => nofun

theorem holds_one (c : Condition) (row : Row) :
    (WhereClause.mk [c] [] []).holds row = c.holds row := by
  simp [WhereClause.holds]

theorem agreesWithClause (s : Schema) (text : String) : AgreesWithClause s text := by
  cases hread : read s text with
  | ok c =>
    have hclause := clause_of_read hread
    refine ⟨fun row => ⟨fun _ => ⟨_, hclause⟩, fun _ => ⟨_, readAndHolds_of_read hread row⟩⟩,
      fun t ht row => ?_, fun row e e' he => ?_⟩
    · rw [hclause] at ht
      cases ht
      rw [readAndHolds_of_read hread, holds_one]
    · rw [readAndHolds_of_read hread] at he
      cases he
  | error e =>
    obtain ⟨e', hclause, hrefused⟩ := clause_of_error hread
    refine ⟨fun row => ?_, fun t ht => ?_, fun row e₁ e₁' he he' => ?_⟩
    · rw [readAndHolds_of_error hread, hclause]
      simp
    · rw [hclause] at ht
      cases ht
    · rw [readAndHolds_of_error hread] at he
      rw [hclause] at he'
      cases he
      cases he'
      exact hrefused

end Condition

end TypedTables
