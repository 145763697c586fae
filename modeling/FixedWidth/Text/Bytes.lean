/-!
# Texts as bytes

The UTF-8 form of a text, in which it is written out and by which group names are ordered. Texts are
told apart by their bytes (`bytes_injective`), so the order of the bytes is a linear order of texts.

In the program a text is its bytes, and both the order of the group names and what is written come
straight from them.
-/

namespace FixedWidth.Text

/-- The bytes of a text in UTF-8. -/
def bytes (text : String) : List UInt8 := text.toByteArray.data.toList

/-- Texts are told apart by their bytes. -/
theorem bytes_injective {a b : String} (h : bytes a = bytes b) : a = b := by
  apply String.toByteArray_inj.1
  cases ha : a.toByteArray with
  | mk x =>
    cases hb : b.toByteArray with
    | mk y =>
      simp only [bytes, ha, hb, Array.toList_inj] at h
      rw [h]

theorem bytes_append (a b : String) : bytes (a ++ b) = bytes a ++ bytes b := by
  simp [bytes, String.toByteArray_append]

/-- Whether a text comes before another one in the order of their bytes. -/
def before (a b : String) : Prop := bytes a < bytes b

instance (a b : String) : Decidable (before a b) := inferInstanceAs (Decidable (bytes a < bytes b))

theorem before_irrefl (a : String) : ¬ before a a := List.lt_irrefl _

theorem before_trans {a b c : String} (hab : before a b) (hbc : before b c) : before a c :=
  List.lt_trans hab hbc

/-- Of two texts one comes before the other. -/
theorem before_of_not_before {a b : String} (h : ¬ before a b) (hne : a ≠ b) : before b a := by
  by_cases hba : before b a
  · exact hba
  · exact absurd (bytes_injective (List.le_antisymm (List.not_lt.1 hba) (List.not_lt.1 h))) hne

end FixedWidth.Text
