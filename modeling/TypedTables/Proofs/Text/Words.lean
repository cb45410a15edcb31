import TypedTables.Text.Ascii

/-!
# Words of a list

A text is looked for among the words of a list, without regard to the case of its letters: what is found is
a word that is the same text, and nothing is found just if none of them is.
-/

namespace TypedTables.Text

variable {α : Type} {all : List α} {word : α → String} {text : String} {a : α}

theorem sameIgnoringCase_of_find? (h : all.find? (fun b => sameIgnoringCase (word b) text) = some a) :
    sameIgnoringCase (word a) text = true :=
  List.find?_some (p := fun b => sameIgnoringCase (word b) text) h

/-- A list in which each word leads to its entry leads from every spelling of the word to the entry. -/
theorem find?_of_sameIgnoringCase (hself : all.find? (fun b => sameIgnoringCase (word b) (word a)) = some a)
    (h : sameIgnoringCase (word a) text = true) :
    all.find? (fun b => sameIgnoringCase (word b) text) = some a := by
  rw [← hself]
  simp only [sameIgnoringCase, beq_iff_eq.mp h]

theorem find?_sameIgnoringCase_eq_none (hall : ∀ a, a ∈ all) :
    all.find? (fun a => sameIgnoringCase (word a) text) = none ↔
      ∀ a, sameIgnoringCase (word a) text = false := by
  rw [List.find?_eq_none]
  exact ⟨fun h a => Bool.eq_false_iff.mpr (h a (hall a)), fun h a _ => Bool.eq_false_iff.mp (h a)⟩

end TypedTables.Text
