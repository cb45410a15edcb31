import TypedTables.Proofs.Condition.Cursor
import TypedTables.Proofs.Condition.LiteralGrammar
import TypedTables.Proofs.Schema.Valid

/-!
# The grammar of conditions

Which texts write which conditions (`WrittenCondition.Writes`), and what is wrong with the others
(`WrittenCondition.Fault`). Every text either writes a condition or has a fault. Reading tells which: a
name and the characters of a comparator are taken as far as they go, and neither can go into what
comes next, since no character is of two of the kinds blank, name and comparator.
-/

namespace TypedTables

open Text

theorem Comparator.isSymbolChar_iff {c : Char} :
    isSymbolChar c = true ↔ ∃ k : Comparator, c ∈ k.symbol.toList := by
  have hchar : isSymbolChar c = true ↔
      c = '=' ∨ c = '<' ∨ c = '>' ∨ c = '!' ∨ c = '^' ∨ c = '~' ∨ c = '$' := by
    rw [isSymbolChar, show "=<>!^~$".toList = ['=', '<', '>', '!', '^', '~', '$'] from rfl]
    simp
  rw [hchar]
  constructor
  · rintro (rfl | rfl | rfl | rfl | rfl | rfl | rfl)
    · exact ⟨equal, by decide⟩
    · exact ⟨less, by decide⟩
    · exact ⟨greater, by decide⟩
    · exact ⟨notEqual, by decide⟩
    · exact ⟨startsWith, by decide⟩
    · exact ⟨contains, by decide⟩
    · exact ⟨endsWith, by decide⟩
  · rintro ⟨k, hk⟩
    rw [← hchar]
    have hall : ∀ k : Comparator, k.symbol.toList.all isSymbolChar = true := by
      intro k
      cases k <;> rfl
    exact List.all_eq_true.mp (hall k) c hk

namespace WrittenCondition

/-- The text writes the condition: a name, the symbol of a comparator and a literal, with white space
before, between and after them or not. -/
inductive Writes : List Char → WrittenCondition → Prop where
  | parts {b₀ b₁ b₂ b₃ name lit : List Char} {comparator : Comparator} {literal : Literal}
    (blank₀ : AllBlank b₀) (blank₁ : AllBlank b₁) (blank₂ : AllBlank b₂) (blank₃ : AllBlank b₃)
    (named : IsIdentifier name) (writes : literal.Writes lit) :
    Writes (b₀ ++ (name ++ (b₁ ++ (comparator.symbol.toList ++ (b₂ ++ (lit ++ b₃))))))
      ⟨String.ofList name, comparator, literal⟩

/-- What is wrong with a text, and the complaint about it. -/
inductive Fault (text : String) : ConditionError → Prop where
  /-- There is no name after the white space at the front. -/
  | noName {b s : List Char} (eq : text.toList = b ++ s) (blank : AllBlank b)
    (stops : Stops isBlank s) (unnamed : ∀ name t, IsIdentifier name → s ≠ name ++ t) :
    Fault text (.malformed text)
  /-- There is no character of a comparator after the name and white space. -/
  | noComparator {b₀ name b₁ s : List Char} (eq : text.toList = b₀ ++ (name ++ (b₁ ++ s)))
    (blank₀ : AllBlank b₀) (blank₁ : AllBlank b₁) (named : IsIdentifier name)
    (ends : Stops isNameChar (b₁ ++ s)) (stops : Stops isBlank s)
    (none : Stops Comparator.isSymbolChar s) : Fault text (.malformed text)
  /-- The characters of comparators after the name, as many as there are, are no comparator. -/
  | comparator {b₀ name b₁ run s : List Char} (eq : text.toList = b₀ ++ (name ++ (b₁ ++ (run ++ s))))
    (blank₀ : AllBlank b₀) (blank₁ : AllBlank b₁) (named : IsIdentifier name) (some : run ≠ [])
    (chars : ∀ c ∈ run, Comparator.isSymbolChar c = true) (stops : Stops Comparator.isSymbolChar s)
    (unknown : ∀ k : Comparator, k.symbol.toList ≠ run) :
    Fault text (.unknownComparator (String.ofList run))
  /-- What comes after the comparator is no literal. -/
  | literal {b₀ name b₁ b₂ lit b₃ : List Char} {k : Comparator}
    (eq : text.toList = b₀ ++ (name ++ (b₁ ++ (k.symbol.toList ++ (b₂ ++ (lit ++ b₃))))))
    (blank₀ : AllBlank b₀) (blank₁ : AllBlank b₁) (blank₂ : AllBlank b₂) (blank₃ : AllBlank b₃)
    (named : IsIdentifier name) (stops : Stops Comparator.isSymbolChar (b₂ ++ (lit ++ b₃)))
    (bare : Bare lit) (invalid : ∀ l : Literal, ¬l.Writes lit) :
    Fault text (.invalidLiteral (String.ofList lit))

/-! ## Where the parts end -/

theorem isNameChar_of_isNameStart {c : Char} (h : isNameStart c = true) : isNameChar c = true := by
  simp only [isNameStart, isNameChar, Char.isAlphanum, Bool.or_eq_true] at h ⊢
  rcases h with h | h
  · exact .inl (.inl h)
  · exact .inr h

theorem isNameChar_of_isIdentifier {name : List Char} (h : IsIdentifier name) :
    ∃ c cs, name = c :: cs ∧ isNameStart c = true ∧ ∀ d ∈ name, isNameChar d = true := by
  have hname := isIdentifier_iff.mpr h
  obtain ⟨c, cs, rfl, -, -⟩ := h
  rw [isIdentifier, Bool.and_eq_true, List.all_eq_true] at hname
  refine ⟨c, cs, rfl, hname.1, ?_⟩
  intro d hd
  rcases List.mem_cons.mp hd with rfl | hd
  · exact isNameChar_of_isNameStart hname.1
  · exact hname.2 d hd

theorem isBlank_of_isSymbolChar {c : Char} (h : Comparator.isSymbolChar c = true) :
    isBlank c = false := by
  have hall : "=<>!^~$".toList.all (fun c => !isBlank c) = true := by decide +kernel
  have := List.all_eq_true.mp hall c (List.elem_iff.mp h)
  rwa [Bool.not_eq_true'] at this

theorem isSymbolChar_of_isBlank {c : Char} (h : isBlank c = true) :
    Comparator.isSymbolChar c = false :=
  disjoint_kinds_symm (p := Comparator.isSymbolChar) (fun _ => isBlank_of_isSymbolChar) h

theorem isNameChar_of_isSymbolChar {c : Char} (h : Comparator.isSymbolChar c = true) :
    isNameChar c = false :=
  disjoint_kinds_symm (p := isNameChar) (fun _ => Comparator.isSymbolChar_of_isNameChar) h

theorem symbol_ne_nil (k : Comparator) : k.symbol.toList ≠ [] := by cases k <;> decide

theorem stops_blank {p : Char → Bool} {b s : List Char} (hp : ∀ c, isBlank c = true → p c = false)
    (hb : AllBlank b) (hs : Stops p s) : Stops p (b ++ s) :=
  (stops_of_forall fun c hc => hp c (hb c hc)).append hs

theorem stops_symbol {p : Char → Bool} {run s : List Char}
    (hp : ∀ c, Comparator.isSymbolChar c = true → p c = false) (hne : run ≠ [])
    (hrun : ∀ c ∈ run, Comparator.isSymbolChar c = true) : Stops p (run ++ s) := by
  obtain ⟨c, cs, rfl⟩ := List.exists_cons_of_ne_nil hne
  exact stops_cons.mpr (hp c (hrun c (List.mem_cons_self ..)))

theorem symbol_chars (k : Comparator) : ∀ c ∈ k.symbol.toList, Comparator.isSymbolChar c = true :=
  fun _ hc => Comparator.isSymbolChar_iff.mpr ⟨k, hc⟩

/-! ## Reading the parts -/

variable {text : String} {b₀ name b₁ b₂ run s lit b₃ : List Char}

theorem read_name (heq : text.toList = b₀ ++ (name ++ s)) (hb : AllBlank b₀)
    (hname : IsIdentifier name) (hs : Stops isNameChar s) :
    read text = readRest (.malformed text) (String.ofList name) s := by
  obtain ⟨c, cs, rfl, hc, hall⟩ := isNameChar_of_isIdentifier hname
  have hstart : Stops isBlank (c :: cs ++ s) :=
    stops_cons.mpr (isBlank_of_isNameChar (hall c (List.mem_cons_self ..)))
  have hhead : (c :: cs ++ s).head?.any isNameStart = true := hc
  unfold read
  rw [heq, trimStart_append hb hstart]
  dsimp only
  rw [if_pos hhead, takeWhile_run hall hs, dropWhile_run hall hs]

theorem read_noName (heq : text.toList = b₀ ++ s) (hb : AllBlank b₀) (hs : Stops isBlank s)
    (hnone : ∀ name t, IsIdentifier name → s ≠ name ++ t) : read text = .error (.malformed text) := by
  have hhead : ¬s.head?.any isNameStart = true := by
    cases s with
    | nil => decide
    | cons c t =>
      intro hc
      have hname : isIdentifier [c] = true := by
        rw [isIdentifier, List.all_nil, Bool.and_true]
        exact hc
      exact hnone [c] t (isIdentifier_iff.mp hname) rfl
  unfold read
  rw [heq, trimStart_append hb hs]
  exact if_neg hhead

theorem readRest_run (malformed : ConditionError) (key : String) (hb : AllBlank b₁)
    (hstart : Stops isBlank (run ++ s)) (hrun : ∀ c ∈ run, Comparator.isSymbolChar c = true)
    (hs : Stops Comparator.isSymbolChar s) :
    readRest malformed key (b₁ ++ (run ++ s)) =
      if run.isEmpty then .error malformed
      else
        match Comparator.ofSymbol? (String.ofList run) with
        | none => .error (.unknownComparator (String.ofList run))
        | some comparator => (Literal.read (trim s)).map fun literal => ⟨key, comparator, literal⟩ := by
  unfold readRest
  rw [trimStart_append hb hstart]
  dsimp only
  rw [takeWhile_run hrun hs, dropWhile_run hrun hs]
  rfl

/-- A text with a name and a comparator is read up to the literal. -/
theorem read_symbol (k : Comparator)
    (heq : text.toList = b₀ ++ (name ++ (b₁ ++ (k.symbol.toList ++ s)))) (hb₀ : AllBlank b₀)
    (hb₁ : AllBlank b₁) (hname : IsIdentifier name) (hs : Stops Comparator.isSymbolChar s) :
    read text = (Literal.read (trim s)).map fun literal => ⟨String.ofList name, k, literal⟩ := by
  have hchars := symbol_chars k
  have hends : Stops isNameChar (b₁ ++ (k.symbol.toList ++ s)) :=
    stops_blank (fun _ => isNameChar_of_isBlank) hb₁
      (stops_symbol (fun _ => isNameChar_of_isSymbolChar) (symbol_ne_nil k) hchars)
  have hstart : Stops isBlank (k.symbol.toList ++ s) :=
    stops_symbol (fun _ => isBlank_of_isSymbolChar) (symbol_ne_nil k) hchars
  have hempty : ¬k.symbol.toList.isEmpty = true := by
    rw [List.isEmpty_iff]
    exact symbol_ne_nil k
  rw [read_name heq hb₀ hname hends, readRest_run _ _ hb₁ hstart hchars hs, if_neg hempty,
    String.ofList_toList, Comparator.ofSymbol?_symbol]

theorem literal_read_ok {l : Literal} (h : l.Writes lit) : Literal.read lit = .ok l := by
  rw [Literal.read, Literal.read?_eq_some_iff.mpr h]

theorem literal_read_error (h : ∀ l : Literal, ¬l.Writes lit) :
    Literal.read lit = .error (.invalidLiteral (String.ofList lit)) := by
  unfold Literal.read
  cases hread : Literal.read? lit with
  | none => rfl
  | some l => exact absurd (Literal.read?_eq_some_iff.mp hread) (h l)

/-! ## Reading conditions -/

variable {c : WrittenCondition} {e : ConditionError}

theorem Writes.read_eq (h : Writes text.toList c) : read text = .ok c := by
  generalize htext : text.toList = t at h
  cases h with
  | @parts b₀ b₁ b₂ b₃ name lit k literal hb₀ hb₁ hb₂ hb₃ hname hlit =>
    obtain ⟨hbare, hstops⟩ := hlit.bare
    have hstop : Stops Comparator.isSymbolChar (b₂ ++ (lit ++ b₃)) := by
      have hend : Stops Comparator.isSymbolChar b₃ :=
        stops_of_forall fun c hc => isSymbolChar_of_isBlank (hb₃ c hc)
      exact stops_blank (fun _ => isSymbolChar_of_isBlank) hb₂ (hstops.append hend)
    rw [read_symbol k htext hb₀ hb₁ hname hstop, trim_append hb₂ hb₃ hbare, literal_read_ok hlit]
    rfl

theorem Fault.read_eq (h : Fault text e) : read text = .error e := by
  cases h with
  | noName heq blank stops unnamed => exact read_noName heq blank stops unnamed
  | @noComparator b₀ name b₁ s heq hb₀ hb₁ named ends stops none =>
    rw [read_name heq hb₀ named ends]
    rw [← List.nil_append s] at stops ⊢
    exact readRest_run _ _ hb₁ stops (fun _ h => nomatch h) none
  | @comparator b₀ name b₁ run s heq hb₀ hb₁ named some chars stops unknown =>
    have hends : Stops isNameChar (b₁ ++ (run ++ s)) :=
      stops_blank (fun _ => isNameChar_of_isBlank) hb₁
        (stops_symbol (fun _ => isNameChar_of_isSymbolChar) some chars)
    have hstart : Stops isBlank (run ++ s) :=
      stops_symbol (fun _ => isBlank_of_isSymbolChar) some chars
    have hempty : ¬run.isEmpty = true := by rwa [List.isEmpty_iff]
    have hunknown : Comparator.ofSymbol? (String.ofList run) = none := by
      cases hk : Comparator.ofSymbol? (String.ofList run) with
      | none => rfl
      | some k =>
        refine absurd ?_ (unknown k)
        rw [Comparator.symbol_of_ofSymbol? hk, String.toList_ofList]
    rw [read_name heq hb₀ named hends, readRest_run _ _ hb₁ hstart chars stops, if_neg hempty,
      hunknown]
  | @literal b₀ name b₁ b₂ lit b₃ k heq hb₀ hb₁ hb₂ hb₃ named stops bare invalid =>
    rw [read_symbol k heq hb₀ hb₁ named stops, trim_append hb₂ hb₃ bare, literal_read_error invalid]
    rfl

theorem exists_longest_name {t : List Char} (hname : IsIdentifier name) (hs : s = name ++ t) :
    ∃ longest rest, s = longest ++ rest ∧ IsIdentifier longest ∧ Stops isNameChar rest := by
  obtain ⟨c, cs, rfl, hc, -⟩ := isNameChar_of_isIdentifier hname
  obtain ⟨longest, rest, heq, hall, hstops⟩ := exists_run isNameChar s
  refine ⟨longest, rest, heq, ?_, hstops⟩
  rw [hs] at heq
  cases longest with
  | nil =>
    rw [List.nil_append] at heq
    rw [← heq] at hstops
    have := stops_cons.mp hstops
    rw [isNameChar_of_isNameStart hc] at this
    cases this
  | cons d ds =>
    obtain ⟨rfl, -⟩ := List.cons.inj heq
    apply isIdentifier_iff.mp
    rw [isIdentifier, hc, Bool.true_and, List.all_eq_true]
    exact fun e he => hall e (List.mem_cons_of_mem _ he)

theorem exists_writes_or_fault (text : String) :
    (∃ c, Writes text.toList c) ∨ ∃ e, Fault text e := by
  obtain ⟨b₀, s, heq, hb₀, hs⟩ := exists_run isBlank text.toList
  by_cases hnamed : ∃ name t, IsIdentifier name ∧ s = name ++ t
  · obtain ⟨_, _, hsome, hfront⟩ := hnamed
    obtain ⟨name, t, rfl, hname, ht⟩ := exists_longest_name hsome hfront
    obtain ⟨b₁, t, rfl, hb₁, hblank⟩ := exists_run isBlank t
    obtain ⟨run, t, rfl, hrun, hstops⟩ := exists_run Comparator.isSymbolChar t
    by_cases hempty : run = []
    · subst hempty
      exact .inr ⟨_, .noComparator heq hb₀ hb₁ hname ht hblank hstops⟩
    · by_cases hknown : ∃ k : Comparator, k.symbol.toList = run
      · obtain ⟨k, rfl⟩ := hknown
        obtain ⟨b₂, lit, b₃, rfl, hb₂, hb₃, hbare⟩ := exists_trim t
        by_cases hlit : ∃ l : Literal, l.Writes lit
        · obtain ⟨l, hl⟩ := hlit
          refine .inl ⟨⟨String.ofList name, k, l⟩, ?_⟩
          rw [heq]
          exact .parts hb₀ hb₁ hb₂ hb₃ hname hl
        · exact .inr ⟨_, .literal heq hb₀ hb₁ hb₂ hb₃ hname hstops hbare (not_exists.mp hlit)⟩
      · exact .inr ⟨_, .comparator heq hb₀ hb₁ hname hempty hrun hstops (not_exists.mp hknown)⟩
  · refine .inr ⟨_, .noName heq hb₀ hs ?_⟩
    intro name t hname ht
    exact hnamed ⟨name, t, hname, ht⟩

/-- Reading finds the only condition that the text writes, or else what is wrong with it, and never
looks where there is no text. -/
theorem read_grammar (text : String) :
    (∀ c, read text = .ok c ↔ Writes text.toList c) ∧
    (∀ c c', Writes text.toList c → Writes text.toList c' → c = c') ∧
    (∀ e, read text = .error e ↔ Fault text e) ∧
    Cursor.read? text = some (read text) := by
  refine ⟨?_, ?_, ?_, Cursor.read?_eq text⟩
  · intro c
    refine ⟨?_, Writes.read_eq⟩
    intro hread
    rcases exists_writes_or_fault text with ⟨c', hc'⟩ | ⟨e, he⟩
    · rw [hc'.read_eq] at hread
      cases hread
      exact hc'
    · rw [he.read_eq] at hread
      cases hread
  · intro c c' hc hc'
    have heq : Except.ok c = Except.ok c' := hc.read_eq.symm.trans hc'.read_eq
    cases heq
    rfl
  · intro e
    refine ⟨?_, Fault.read_eq⟩
    intro hread
    rcases exists_writes_or_fault text with ⟨c, hc⟩ | ⟨e', he'⟩
    · rw [hc.read_eq] at hread
      cases hread
    · rw [he'.read_eq] at hread
      cases hread
      exact he'

/-- Quotes, comparators and white space within quotes are part of the text that is quoted. -/
theorem read_grammar_quoted :
    Writes " a==' == \"b\"' ' ".toList ⟨"a", .equal, .text " == \"b\"' "⟩ :=
  ((read_grammar " a==' == \"b\"' ' ").1 _).mp (by decide +kernel)

end WrittenCondition

end TypedTables
