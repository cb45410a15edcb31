import Mathlib.Data.List.TakeWhile
import TypedTables.Condition.Written

/-!
# Reading by position

A condition read as a walk over the positions of its text. To look at a position where there is no
character has no result, nor has a cut through a character or beyond the text. No condition comes to
that: the reading has a result for every text, the one that reading from the front has.
-/

namespace TypedTables

open Text

/-- A text and a position in it. -/
structure Cursor where
  text : Array Char
  position : Nat

namespace Cursor

/-! ## Cuts -/

def byteLength : List Char → Nat
  | [] => 0
  | c :: s => c.utf8Size + byteLength s

/-- A text cut after a number of bytes, which must be the end of a character. -/
def cut? : Nat → List Char → Option (List Char × List Char)
  | 0, s => some ([], s)
  | _ + 1, [] => none
  | n + 1, c :: s =>
    if c.utf8Size ≤ n + 1 then (cut? (n + 1 - c.utf8Size) s).map fun (front, back) => (c :: front, back)
    else none

/-- The bytes of a text from one to before another, which must be there in this order and must not cut
through a character. -/
def slice? (start stop : Nat) (s : List Char) : Option (List Char) :=
  if stop < start then none
  else (cut? stop s).bind fun (front, _) => (cut? start front).map Prod.snd

theorem cut?_append (a b : List Char) : cut? (byteLength a) (a ++ b) = some (a, b) := by
  induction a with
  | nil => cases b <;> rfl
  | cons c a ih =>
    have hpos : 0 < c.utf8Size := Char.utf8Size_pos c
    obtain ⟨n, hn⟩ : ∃ n, byteLength (c :: a) = n + 1 := ⟨c.utf8Size + byteLength a - 1, by
      rw [byteLength]
      omega⟩
    have hrest : n + 1 - c.utf8Size = byteLength a := by
      rw [← hn, byteLength]
      omega
    have hfits : c.utf8Size ≤ n + 1 := by
      rw [← hn, byteLength]
      omega
    rw [hn, List.cons_append, cut?, if_pos hfits, hrest, ih]
    rfl

theorem byteLength_append (a b : List Char) :
    byteLength (a ++ b) = byteLength a + byteLength b := by
  induction a with
  | nil => rw [List.nil_append, byteLength, Nat.zero_add]
  | cons c a ih => rw [List.cons_append, byteLength, byteLength, ih, Nat.add_assoc]

theorem slice?_middle (a s b : List Char) :
    slice? (byteLength a) (byteLength a + byteLength s) (a ++ (s ++ b)) = some s := by
  rw [slice?, if_neg (by omega), ← byteLength_append, ← List.append_assoc, cut?_append,
    Option.bind_some]
  dsimp only
  rw [cut?_append]
  rfl

/-! ## Positions -/

def isAtEnd (c : Cursor) : Bool := decide (c.text.size ≤ c.position)

def current? (c : Cursor) : Option Char := c.text[c.position]?

def advance (c : Cursor) : Cursor := { c with position := c.position + 1 }

/-- The text from the position on, which must not be beyond the text. -/
def rest? (c : Cursor) : Option (List Char) :=
  if c.position ≤ c.text.size then some (c.text.toList.drop c.position) else none

/-- Takes characters of a kind, as many as there are, and stops behind them. -/
def takeWhile? (p : Char → Bool) (c : Cursor) : Option (List Char × Cursor) :=
  if c.isAtEnd then some ([], c)
  else
    match c.current? with
    | none => none
    | some e =>
      if p e then (c.advance.takeWhile? p).map fun (run, after) => (e :: run, after)
      else some ([], c)
termination_by c.text.size - c.position
decreasing_by
  simp only [isAtEnd, decide_eq_true_eq, advance] at *
  omega

/-- The cursor has this text before it. -/
structure Before (c : Cursor) (s : List Char) : Prop where
  inside : c.position ≤ c.text.size
  rest : c.text.toList.drop c.position = s

variable {c : Cursor} {s : List Char} {p : Char → Bool}

theorem before_start (s : List Char) : Before ⟨s.toArray, 0⟩ s := ⟨Nat.zero_le _, rfl⟩

theorem Before.rest?_eq (h : c.Before s) : c.rest? = some s := by
  rw [rest?, if_pos h.inside, h.rest]

theorem Before.length_eq (h : c.Before s) : s.length + c.position = c.text.size := by
  have hinside := h.inside
  rw [← h.rest, List.length_drop, Array.length_toList]
  omega

theorem Before.isAtEnd_nil (h : c.Before []) : c.isAtEnd = true := by
  have := h.length_eq
  rw [List.length_nil] at this
  exact decide_eq_true (by omega)

theorem Before.cons {e : Char} (h : c.Before (e :: s)) :
    c.isAtEnd = false ∧ c.current? = some e ∧ c.advance.Before s := by
  have hlength := h.length_eq
  rw [List.length_cons] at hlength
  refine ⟨decide_eq_false (by omega), ?_, ?_, ?_⟩
  · rw [current?, ← Array.getElem?_toList, ← List.head?_drop, h.rest]
    rfl
  · show c.position + 1 ≤ c.text.size
    omega
  · show c.text.toList.drop (c.position + 1) = s
    rw [← List.tail_drop, h.rest]
    rfl

/-- No look is at a position beyond the text, and the cursor stops where the run does. -/
theorem Before.takeWhile? (h : c.Before s) :
    ∃ after, c.takeWhile? p = some (s.takeWhile p, after) ∧ after.Before (s.dropWhile p) := by
  induction s generalizing c with
  | nil =>
    refine ⟨c, ?_, h⟩
    rw [Cursor.takeWhile?, if_pos h.isAtEnd_nil]
    rfl
  | cons e s ih =>
    obtain ⟨hend, hcurrent, hadvance⟩ := h.cons
    rw [Cursor.takeWhile?, if_neg (by simp [hend]), hcurrent]
    dsimp only
    by_cases he : p e = true
    · obtain ⟨after, hafter, hbefore⟩ := ih hadvance
      refine ⟨after, ?_, ?_⟩
      · rw [if_pos he, hafter, List.takeWhile_cons, if_pos he]
        rfl
      · rwa [List.dropWhile_cons, if_pos he]
    · refine ⟨c, ?_, ?_⟩
      · rw [if_neg he, List.takeWhile_cons, if_neg he]
      · rwa [List.dropWhile_cons, if_neg he]

/-! ## Conditions -/

/-- Reads what begins with a quote: it must end with it too, and what is between is cut out. -/
def readQuoted? (q : Char) (s : List Char) : Option (Except ConditionError Literal) :=
  if byteLength s < 2 || s.getLast? != some q then
    some (.error (.invalidLiteral (String.ofList s)))
  else (slice? 1 (byteLength s - 1) s).map fun t => .ok (.text (String.ofList t))

def readLiteral? (s : List Char) : Option (Except ConditionError Literal) :=
  match s.head? with
  | some q => if q == '\'' || q == '"' then readQuoted? q s else some (Literal.read s)
  | none => some (Literal.read s)

def readRest? (malformed : ConditionError) (key : String) (c : Cursor) :
    Option (Except ConditionError WrittenCondition) := do
  let (_, c) ← c.takeWhile? isBlank
  let (symbol, c) ← c.takeWhile? Comparator.isSymbolChar
  if symbol.isEmpty then some (.error malformed)
  else
    match Comparator.ofSymbol? (String.ofList symbol) with
    | none => some (.error (.unknownComparator (String.ofList symbol)))
    | some comparator =>
      let (_, c) ← c.takeWhile? isBlank
      let rest ← c.rest?
      let literal ← readLiteral? (trimEnd rest)
      some (literal.map fun literal => { key, comparator, literal })

def read? (text : String) : Option (Except ConditionError WrittenCondition) := do
  let (_, c) ← Cursor.takeWhile? isBlank ⟨text.toList.toArray, 0⟩
  if c.isAtEnd then some (.error (.malformed text))
  else
    let first ← c.current?
    if isNameStart first then
      let (name, c) ← c.takeWhile? isNameChar
      readRest? (.malformed text) (String.ofList name) c
    else some (.error (.malformed text))

theorem literal_read_quoted {q : Char} (hq : (q == '\'' || q == '"') = true) (s : List Char) :
    Literal.read (q :: s) =
      ((Literal.readQuoted? q s).map .ok).getD
        (.error (.invalidLiteral (String.ofList (q :: s)))) := by
  have hquoted : Literal.read? (q :: s) = Literal.readQuoted? q s := if_pos hq
  rw [Literal.read, hquoted]
  cases Literal.readQuoted? q s <;> rfl

theorem readQuoted?_eq {q : Char} (hq : (q == '\'' || q == '"') = true) (s : List Char) :
    readQuoted? q (q :: s) = some (Literal.read (q :: s)) := by
  have hone : byteLength [q] = 1 := by
    simp only [Bool.or_eq_true, beq_iff_eq] at hq
    rcases hq with rfl | rfl <;> rfl
  rw [literal_read_quoted hq, readQuoted?]
  rcases List.eq_nil_or_concat s with rfl | ⟨t, e, rfl⟩
  · rw [hone]
    rfl
  · have hlast : (q :: (t ++ [e])).getLast? = some e := by
      rw [← List.cons_append, List.getLast?_append]
      rfl
    have hreverse : (t ++ [e]).reverse = e :: t.reverse := by
      rw [List.reverse_append]
      rfl
    rw [List.concat_eq_append, hlast, Literal.readQuoted?, hreverse]
    dsimp only
    by_cases he : e = q
    · subst he
      have hlength : byteLength (e :: (t ++ [e])) = byteLength [e] + byteLength t + 1 := by
        rw [← List.singleton_append, byteLength_append, byteLength_append, hone, Nat.add_assoc]
      have hmiddle : slice? 1 (1 + byteLength t) (e :: (t ++ [e])) = some t := by
        have := slice?_middle [e] t [e]
        rwa [hone] at this
      have hlong : ¬(decide (1 + byteLength t + 1 < 2) || (some e != some e)) = true := by
        simp
      rw [hlength, hone, if_neg hlong, Nat.add_sub_cancel, hmiddle, if_pos (beq_self_eq_true e),
        List.reverse_reverse]
      rfl
    · have hshort : (decide (byteLength (q :: (t ++ [e])) < 2) || (some e != some q)) = true := by
        simp [he]
      rw [if_pos hshort, if_neg (by simpa using he)]
      rfl

theorem readLiteral?_eq (s : List Char) : readLiteral? s = some (Literal.read s) := by
  cases s with
  | nil => rfl
  | cons q s =>
    unfold readLiteral?
    dsimp only [List.head?_cons]
    by_cases hq : (q == '\'' || q == '"') = true
    · rw [if_pos hq, readQuoted?_eq hq]
    · rw [if_neg hq]

theorem Before.readRest? (h : c.Before s) (malformed : ConditionError) (key : String) :
    Cursor.readRest? malformed key c = some (WrittenCondition.readRest malformed key s) := by
  obtain ⟨c₁, htake₁, h₁⟩ := h.takeWhile? (p := isBlank)
  obtain ⟨c₂, htake₂, h₂⟩ := h₁.takeWhile? (p := Comparator.isSymbolChar)
  obtain ⟨c₃, htake₃, h₃⟩ := h₂.takeWhile? (p := isBlank)
  rw [Cursor.readRest?, htake₁, WrittenCondition.readRest, trimStart]
  dsimp only [bind, Option.bind_some]
  rw [htake₂, Option.bind_some]
  dsimp only
  generalize (s.dropWhile isBlank).takeWhile Comparator.isSymbolChar = symbol
  by_cases hempty : symbol.isEmpty = true
  · rw [if_pos hempty, if_pos hempty]
  · rw [if_neg hempty, if_neg hempty]
    cases Comparator.ofSymbol? (String.ofList symbol) with
    | none => rfl
    | some comparator =>
      dsimp only
      rw [htake₃, Option.bind_some]
      dsimp only
      rw [h₃.rest?_eq, Option.bind_some, readLiteral?_eq, Option.bind_some, trim, trimStart]
      cases Literal.read (trimEnd (((s.dropWhile isBlank).dropWhile Comparator.isSymbolChar).dropWhile
        isBlank)) <;> rfl

/-- The walk has a result for every text, and the same as reading from the front. -/
theorem read?_eq (text : String) : read? text = some (WrittenCondition.read text) := by
  obtain ⟨c, htake, h⟩ := (before_start text.toList).takeWhile? (p := isBlank)
  rw [read?, htake, WrittenCondition.read, trimStart]
  dsimp only [bind, Option.bind_some]
  cases hrest : text.toList.dropWhile isBlank with
  | nil =>
    rw [hrest] at h
    rw [if_pos h.isAtEnd_nil]
    rfl
  | cons e s =>
    rw [hrest] at h
    obtain ⟨hend, hcurrent, -⟩ := h.cons
    obtain ⟨c', htake', h'⟩ := h.takeWhile? (p := isNameChar)
    rw [if_neg (by simp [hend]), hcurrent, List.head?_cons, Option.bind_some, Option.any_some]
    by_cases hfirst : isNameStart e = true
    · rw [if_pos hfirst, if_pos hfirst, htake', Option.bind_some]
      exact h'.readRest? _ _
    · rw [if_neg hfirst, if_neg hfirst]

end Cursor

end TypedTables
