import FixedWidth.Json.Error
import FixedWidth.Proofs.Numeral

/-!
# Positions at the end of a message

What a complaint about a literal loses: an ending that looks like the position of an error in a
text. `IsPosition` is the grammar of such endings, and `isPosition_iff` says that it is what
`isPosition` tests. A position has a single `a`, its second character, so no position ends in
another one (`IsPosition.eq_of_suffix`), and a message has at most one to lose.

- `withoutPosition_append`: a message that ends in a position loses it;
- `withoutPosition_eq_self`: any other message stays as it is.
-/

namespace FixedWidth

/-! ## Words in decimal -/

namespace Numeral

/-- Whether a text is decimal digits of a number that fits into 64 bits. -/
def IsWord (text : List Char) : Prop := ∃ n, Denotes 10 text n ∧ n ≤ greatestWord

theorem isDigit_of_denotes {text : List Char} {n : Nat} (h : Denotes 10 text n) :
    ∀ c ∈ text, c.isDigit = true := by
  have htables : ∀ d < 10, lowerDigits[d]?.all Char.isDigit ∧ upperDigits[d]?.all Char.isDigit := by
    decide
  obtain ⟨-, digits, hdigits, -⟩ := h
  induction hdigits with
  | nil => exact List.forall_mem_nil _
  | @cons c d text digits hc _ ih =>
    refine List.forall_mem_cons.mpr ⟨?_, ih⟩
    obtain ⟨hd, hc⟩ := hc
    obtain ⟨hlower, hupper⟩ := htables d hd
    rcases hc with hc | hc
    · rw [hc] at hlower
      exact hlower
    · rw [hc] at hupper
      exact hupper

/-- Digits without a sign are read as what they denote. -/
theorem isWord_iff {text : List Char} (h : ∀ c ∈ text, c.isDigit = true) :
    IsWord text ↔ ∃ n, read 10 0 greatestWord text = .ok n := by
  have hiff := @read_eq_ok_iff 10 0 greatestWord (by decide) (Int.le_refl 0) (by decide) text
  constructor
  · rintro ⟨n, hn, hle⟩
    exact ⟨n, hiff.mpr ⟨.plain hn, Int.natCast_nonneg n, by exact_mod_cast hle⟩⟩
  · rintro ⟨n, hn⟩
    obtain ⟨hnumeral, -, hle⟩ := hiff.mp hn
    cases hnumeral with
    | plain hplain => exact ⟨_, hplain, by exact_mod_cast hle⟩
    | plus _ => exact absurd (h '+' (List.mem_cons_self ..)) (by decide)
    | minus hallowed _ => exact absurd hallowed (by decide)

end Numeral

namespace Json

open Numeral

/-- Whether a text is a position, with a line and a column of at most 64 bits. -/
def IsPosition (text : List Char) : Prop :=
  ∃ line column, IsWord line ∧ IsWord column ∧
    text = " at line ".toList ++ (line ++ (" column ".toList ++ column))

theorem after_eq_some_iff {beginning text rest : List Char} :
    after beginning text = some rest ↔ text = beginning ++ rest := by
  unfold after
  constructor
  · intro h
    split at h
    next hprefix =>
      obtain ⟨later, rfl⟩ := List.isPrefixOf_iff_prefix.mp hprefix
      rw [List.drop_left] at h
      rw [Option.some.inj h]
    next => cases h
  · rintro rfl
    rw [if_pos (List.isPrefixOf_iff_prefix.mpr (List.prefix_append ..)), List.drop_left]

/-- A number is all digits in front of what is no digit. -/
theorem positionNumber_append {digits rest : List Char} (h : IsWord digits)
    (hrest : ∀ c ∈ rest.head?, c.isDigit = false) :
    positionNumber (digits ++ rest) = some rest := by
  have hdigits : ∀ c ∈ digits, c.isDigit = true := by
    obtain ⟨n, hn, -⟩ := h
    exact isDigit_of_denotes hn
  obtain ⟨n, hn⟩ := (isWord_iff hdigits).mp h
  have hnone : rest.takeWhile Char.isDigit = [] ∧ rest.dropWhile Char.isDigit = rest := by
    cases rest with
    | nil => exact ⟨rfl, rfl⟩
    | cons c rest =>
      have hc := hrest c rfl
      exact ⟨List.takeWhile_cons_of_neg (by rw [hc]; decide),
        List.dropWhile_cons_of_neg (by rw [hc]; decide)⟩
  unfold positionNumber
  rw [List.takeWhile_append_of_pos hdigits, List.dropWhile_append_of_pos hdigits, hnone.1, hnone.2,
    List.append_nil]
  simp only [hn]

/-- A number of a position stands at the front of the text that is searched for it. -/
theorem exists_of_positionNumber {text rest : List Char} (h : positionNumber text = some rest) :
    ∃ digits, IsWord digits ∧ text = digits ++ rest := by
  have hdigits : ∀ c ∈ text.takeWhile Char.isDigit, c.isDigit = true :=
    List.all_eq_true.mp List.all_takeWhile
  unfold positionNumber at h
  cases hread : Numeral.read 10 0 greatestWord (text.takeWhile Char.isDigit) with
  | error e =>
    simp only [hread] at h
    cases h
  | ok n =>
    simp only [hread] at h
    refine ⟨_, (isWord_iff hdigits).mpr ⟨n, hread⟩, ?_⟩
    rw [← Option.some.inj h, List.takeWhile_append_dropWhile]

/-- The search finds the positions and nothing else. -/
theorem isPosition_iff {text : List Char} : isPosition text = true ↔ IsPosition text := by
  unfold isPosition
  simp only [Option.any_eq_true, Option.bind_eq_some_iff, after_eq_some_iff]
  constructor
  · rintro ⟨rest, ⟨later, ⟨middle, ⟨front, rfl, hline⟩, rfl⟩, hcolumn⟩, hend⟩
    obtain ⟨line, hlineWord, rfl⟩ := exists_of_positionNumber hline
    obtain ⟨column, hcolumnWord, rfl⟩ := exists_of_positionNumber hcolumn
    rw [List.isEmpty_iff.mp hend, List.append_nil]
    exact ⟨line, column, hlineWord, hcolumnWord, rfl⟩
  · rintro ⟨line, column, hline, hcolumn, rfl⟩
    -- The blank in front of the second word ends the first number.
    have hblank : ∀ c ∈ (" column ".toList ++ column).head?, c.isDigit = false := by
      rintro c ⟨rfl⟩
      rfl
    have hmiddle := positionNumber_append hline hblank
    have hlast : positionNumber (column ++ []) = some [] := positionNumber_append hcolumn nofun
    rw [List.append_nil] at hlast
    exact ⟨[], ⟨column, ⟨_, ⟨_, rfl, hmiddle⟩, rfl⟩, hlast⟩, rfl⟩

/-! ## At most one -/

/-- A position has a single `a`, and that is its second character. -/
theorem IsPosition.begins {text : List Char} (h : IsPosition text) :
    ∃ rest, text = ' ' :: 'a' :: rest ∧ 'a' ∉ rest := by
  obtain ⟨line, column, ⟨_, hline, -⟩, ⟨_, hcolumn, -⟩, rfl⟩ := h
  refine ⟨"t line ".toList ++ (line ++ (" column ".toList ++ column)), rfl, ?_⟩
  have hdigit : ('a').isDigit = false := by decide
  have hno : ∀ {digits : List Char} {n : Nat}, Denotes 10 digits n → 'a' ∉ digits := by
    intro digits n hn hmem
    rw [isDigit_of_denotes hn 'a' hmem] at hdigit
    cases hdigit
  simp only [List.mem_append, not_or]
  exact ⟨by decide, hno hline, by decide, hno hcolumn⟩

/-- No position ends in another one. -/
theorem IsPosition.eq_of_suffix {front suffix : List Char} (h : IsPosition (front ++ suffix))
    (hsuffix : IsPosition suffix) : front = [] := by
  obtain ⟨later, rfl, -⟩ := hsuffix.begins
  obtain ⟨rest, heq, hno⟩ := h.begins
  -- The `a` of the shorter one would be a second one in the longer.
  match front with
  | [] => rfl
  | [c] => exact absurd (List.cons.inj (List.cons.inj heq).2).1 (by decide)
  | c :: d :: front =>
    obtain ⟨-, hrest⟩ := List.cons.inj (List.cons.inj heq).2
    have hmem : 'a' ∈ rest := by
      rw [← hrest]
      simp
    exact absurd hmem hno

/-- A message that ends in a position loses it. -/
theorem withoutPosition_append (front : List Char) {suffix : List Char} (h : IsPosition suffix) :
    withoutPosition (front ++ suffix) = front := by
  induction front with
  | nil =>
    obtain ⟨rest, rfl, -⟩ := h.begins
    exact if_pos (isPosition_iff.mpr h)
  | cons c front ih =>
    have hlonger : ¬ isPosition (c :: (front ++ suffix)) = true := by
      intro hlonger
      have hboth : IsPosition ((c :: front) ++ suffix) := isPosition_iff.mp hlonger
      exact absurd (hboth.eq_of_suffix h) (List.cons_ne_nil _ _)
    show (if isPosition (c :: (front ++ suffix)) then []
      else c :: withoutPosition (front ++ suffix)) = _
    rw [if_neg hlonger, ih]

/-- A message that does not end in a position stays as it is. -/
theorem withoutPosition_eq_self {message : List Char}
    (h : ∀ front suffix, message = front ++ suffix → ¬ IsPosition suffix) :
    withoutPosition message = message := by
  induction message with
  | nil => rfl
  | cons c rest ih =>
    have hrest : withoutPosition rest = rest :=
      ih fun front suffix heq => h (c :: front) suffix (congrArg (c :: ·) heq)
    show (if isPosition (c :: rest) then [] else c :: withoutPosition rest) = _
    rw [if_neg (mt isPosition_iff.mp (h [] _ rfl)), hrest]

end Json

end FixedWidth
