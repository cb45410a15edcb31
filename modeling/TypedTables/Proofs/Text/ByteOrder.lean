import Mathlib.Data.List.Lex

/-!
# The order of texts and of their bytes

Texts are ordered by the code points of their characters. Their bytes in UTF-8 are in the same order
(`utf8Bytes_lt_iff`): where two characters differ, so do their bytes, in the same direction, and the
bytes of neither go on those of the other.
-/

namespace TypedTables.Text

def utf8Bytes (s : String) : List UInt8 := s.toUTF8.data.toList

theorem utf8Bytes_eq (s : String) : utf8Bytes s = s.toList.flatMap String.utf8EncodeChar := by
  rw [utf8Bytes, String.toUTF8, ← s.utf8Encode_toList]
  simp [List.utf8Encode]

/-- The first list has the smaller byte in the first place where the lists differ, and both have a
byte there. -/
inductive Diverge : List UInt8 → List UInt8 → Prop where
  | here {x y : UInt8} {a b : List UInt8} (less : x < y) : Diverge (x :: a) (y :: b)
  | later {x : UInt8} {a b : List UInt8} (rest : Diverge a b) : Diverge (x :: a) (x :: b)

variable {a b : List UInt8}

theorem Diverge.append_lt (h : Diverge a b) (s t : List UInt8) : a ++ s < b ++ t := by
  induction h with
  | here less => exact List.Lex.rel less
  | later _ ih => exact List.Lex.cons ih

theorem diverge_here {x y : Nat} (hxy : x < y) (hy : y < 256) :
    Diverge (UInt8.ofNat x :: a) (UInt8.ofNat y :: b) := by
  refine .here (UInt8.lt_iff_toNat_lt.mpr ?_)
  rwa [UInt8.toNat_ofNat_of_lt' hy, UInt8.toNat_ofNat_of_lt' (Nat.lt_trans hxy hy)]

theorem diverge_later {x y : Nat} (hxy : x = y) (h : Diverge a b) :
    Diverge (UInt8.ofNat x :: a) (UInt8.ofNat y :: b) := by
  subst hxy
  exact .later h

/-- The last byte of a character has six bits of its code point. -/
theorem diverge_last {v w : Nat} (hvw : v < w) (hhigh : v / 64 = w / 64) :
    Diverge [UInt8.ofNat (v % 64 + 128)] [UInt8.ofNat (w % 64 + 128)] :=
  diverge_here (by omega) (by omega)

theorem diverge_last_two {v w : Nat} (hvw : v < w) (hhigh : v / 4096 = w / 4096) :
    Diverge [UInt8.ofNat (v / 64 % 64 + 128), UInt8.ofNat (v % 64 + 128)]
      [UInt8.ofNat (w / 64 % 64 + 128), UInt8.ofNat (w % 64 + 128)] := by
  rcases Nat.lt_or_ge (v / 64) (w / 64) with h | h
  · exact diverge_here (by omega) (by omega)
  · exact diverge_later (by omega) (diverge_last hvw (by omega))

theorem diverge_last_three {v w : Nat} (hvw : v < w) (hhigh : v / 262144 = w / 262144) :
    Diverge
      [UInt8.ofNat (v / 4096 % 64 + 128), UInt8.ofNat (v / 64 % 64 + 128), UInt8.ofNat (v % 64 + 128)]
      [UInt8.ofNat (w / 4096 % 64 + 128), UInt8.ofNat (w / 64 % 64 + 128),
        UInt8.ofNat (w % 64 + 128)] := by
  rcases Nat.lt_or_ge (v / 4096) (w / 4096) with h | h
  · exact diverge_here (by omega) (by omega)
  · exact diverge_later (by omega) (diverge_last_two hvw (by omega))

/-- The bytes of different characters differ, the first time in the direction of the code points. A
character of more bytes has the greater first byte. -/
theorem diverge_utf8EncodeChar {c d : Char} (h : c < d) :
    Diverge (String.utf8EncodeChar c) (String.utf8EncodeChar d) := by
  have hvw : c.val.toNat < d.val.toNat := h
  have hw : d.val.toNat < 1114112 := by
    have hvalid : d.val.toNat < 0xD800 ∨ 0xDFFF < d.val.toNat ∧ d.val.toNat < 0x110000 := d.valid
    omega
  unfold String.utf8EncodeChar
  dsimp only
  generalize c.val.toNat = v at hvw ⊢
  generalize d.val.toNat = w at hvw hw ⊢
  -- By the number of bytes of the first character, and of the second, which has as many or more.
  split
  · split
    · exact diverge_here (by omega) (by omega)
    · repeat' split
      all_goals exact diverge_here (by omega) (by omega)
  · rw [if_neg (by omega : ¬w ≤ 127)]
    split
    · split
      · rcases Nat.lt_or_ge (v / 64) (w / 64) with h | h
        · exact diverge_here (by omega) (by omega)
        · exact diverge_later (by omega) (diverge_last hvw (by omega))
      · split
        all_goals exact diverge_here (by omega) (by omega)
    · rw [if_neg (by omega : ¬w ≤ 2047)]
      split
      · split
        · rcases Nat.lt_or_ge (v / 4096) (w / 4096) with h | h
          · exact diverge_here (by omega) (by omega)
          · exact diverge_later (by omega) (diverge_last_two hvw (by omega))
        · exact diverge_here (by omega) (by omega)
      · rw [if_neg (by omega : ¬w ≤ 65535)]
        rcases Nat.lt_or_ge (v / 262144) (w / 262144) with h | h
        · exact diverge_here (by omega) (by omega)
        · exact diverge_later (by omega) (diverge_last_three hvw (by omega))

theorem flatMap_utf8EncodeChar_lt {s t : List Char} (h : s < t) :
    s.flatMap String.utf8EncodeChar < t.flatMap String.utf8EncodeChar := by
  induction h with
  | @nil c t =>
    obtain ⟨byte, bytes, hc⟩ := List.exists_cons_of_ne_nil (@String.utf8EncodeChar_ne_nil c)
    rw [List.flatMap_nil, List.flatMap_cons, hc]
    exact List.Lex.nil
  | rel hcd => exact (diverge_utf8EncodeChar hcd).append_lt _ _
  | cons _ ih => exact List.append_left_lt ih

/-- The order of texts is the order of their bytes. -/
theorem utf8Bytes_lt_iff {s t : String} : utf8Bytes s < utf8Bytes t ↔ s < t := by
  have hmono : ∀ {s t : String}, s < t → utf8Bytes s < utf8Bytes t := fun h => by
    rw [utf8Bytes_eq, utf8Bytes_eq]
    exact flatMap_utf8EncodeChar_lt (String.lt_iff.mp h)
  refine ⟨fun h => ?_, hmono⟩
  by_contra hlt
  by_cases heq : s = t
  · rw [heq] at h
    exact List.lt_irrefl _ h
  · have hts : t < s := String.not_le.mp fun hle => heq (String.le_antisymm hle (String.not_lt.mp hlt))
    exact List.lt_asymm h (hmono hts)

end TypedTables.Text
