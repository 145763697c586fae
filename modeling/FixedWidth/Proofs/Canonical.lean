import FixedWidth.Proofs.Grammar

/-!
# Canonical literals

Every value has two notations that are written, its literal and its pattern behind the name of its
type, and many more that are read: either notation with blanks around its halves and underscores in
it, the pattern also with its letters in either case (`Respells`). All of them are read as the
value, and the literal is the one that stands for all, as two texts are read alike exactly if what
they are read as has one literal.

Underscores and letters are put in one after the other, so each has a lemma of its own by induction
on the way it was done: leaving underscores out again gives what they were put into
(`Underscored.filter_eq`), and another case denotes the same number (`Denotes.recased`).

> `read_respelled`
-/

namespace FixedWidth

/-! ## Letters of either case -/

namespace Numeral

/-- Whether a character is another one, or that one as a capital letter. -/
def Recased (c d : Char) : Prop := d = c ∨ d = c.toUpper

instance (c d : Char) : Decidable (Recased c d) := inferInstanceAs (Decidable (_ ∨ _))

/-- A digit in the other case is the same digit. -/
theorem IsDigit.recased {radix d : Nat} {c c' : Char} (h : IsDigit radix c d)
    (hc : Recased c c') : IsDigit radix c' d := by
  have hlower : ∀ d < 16, (lowerDigits[d]?).map Char.toUpper = upperDigits[d]? := by decide
  have hupper : ∀ d < 16, (upperDigits[d]?).map Char.toUpper = upperDigits[d]? := by decide
  obtain ⟨hd, htable⟩ := h
  rcases hc with rfl | rfl
  · exact ⟨hd, htable⟩
  · refine ⟨hd, Or.inr ?_⟩
    rcases htable with h | h
    · rw [← hlower d (List.getElem?_eq_some_iff.mp h).1, h]
      rfl
    · rw [← hupper d (List.getElem?_eq_some_iff.mp h).1, h]
      rfl

/-- The case of letters does not matter, for each of them alone. -/
theorem Denotes.recased {radix n : Nat} {text text' : List Char} (h : Denotes radix text n)
    (hcase : List.Forall₂ Recased text text') : Denotes radix text' n := by
  obtain ⟨hne, digits, hall, hn⟩ := h
  have hall' : List.Forall₂ (IsDigit radix) text' digits := by
    clear * - hall hcase
    induction hall generalizing text' with
    | nil =>
      cases hcase
      exact .nil
    | cons hd _ ih =>
      cases hcase with
      | cons hc hrest => exact .cons (hd.recased hc) (ih hrest)
  refine ⟨?_, digits, hall', hn⟩
  intro hnil
  subst hnil
  cases hcase
  exact hne rfl

end Numeral

/-! ## Underscores -/

/-- Whether a text is another one with underscores put in, between its characters or at its ends. -/
inductive Underscored : List Char → List Char → Prop where
  | nil : Underscored [] []
  | keep (c : Char) {plain text : List Char} (h : Underscored plain text) :
    Underscored (c :: plain) (c :: text)
  | insert {plain text : List Char} (h : Underscored plain text) :
    Underscored plain ('_' :: text)

namespace Underscored

variable {plain text : List Char}

theorem refl (text : List Char) : Underscored text text := by
  induction text with
  | nil => exact .nil
  | cons c rest ih => exact .keep c ih

/-- Every text is what is left of it without underscores, with its underscores put in. -/
theorem of_filter (text : List Char) : Underscored (text.filter (· ≠ '_')) text := by
  induction text with
  | nil => exact .nil
  | cons c rest ih =>
    by_cases hc : c = '_'
    · rw [List.filter_cons_of_neg (by simp [hc]), hc]
      exact .insert ih
    · rw [List.filter_cons_of_pos (by simp [hc])]
      exact .keep c ih

theorem mem (h : Underscored plain text) {c : Char} (hc : c ∈ text) : c = '_' ∨ c ∈ plain := by
  induction h with
  | nil => cases hc
  | keep d _ ih =>
    rcases List.mem_cons.mp hc with rfl | hc
    · exact Or.inr (List.mem_cons_self ..)
    · exact (ih hc).imp_right (List.mem_cons_of_mem d)
  | insert _ ih =>
    rcases List.mem_cons.mp hc with rfl | hc
    · exact Or.inl rfl
    · exact ih hc

/-- Leaving underscores out undoes putting them in. -/
theorem filter_eq (h : Underscored plain text) :
    text.filter (· ≠ '_') = plain.filter (· ≠ '_') := by
  induction h with
  | nil => rfl
  | keep c _ ih => rw [List.filter_cons, List.filter_cons, ih]
  | insert _ ih => rw [List.filter_cons_of_neg (by decide), ih]

end Underscored

/-! ## The half after the colon -/

namespace Value

variable {v : Value} {half : List Char}

/-- Whether a text is the decimal or the pattern of a value, up to underscores and to the case of
letters. -/
inductive WrittenAs (v : Value) : List Char → Prop where
  | decimal {text : List Char} (h : Underscored (Numeral.signedDecimal v.toInt) text) :
    WrittenAs v text
  | pattern {x : Char} {digits text : List Char} (hx : x = 'x' ∨ x = 'X')
    (hcase : List.Forall₂ Numeral.Recased (Numeral.hex (v.type.width / 4) v.pattern) digits)
    (h : Underscored digits text) : WrittenAs v ('0' :: x :: text)

/-- As many hexadecimal digits as the width asks for are enough for the pattern. -/
theorem pattern_lt_hex (v : Value) :
    0 < v.type.width / 4 ∧ v.pattern < 16 ^ (v.type.width / 4) := by
  have hcount : 0 < v.type.width / 4 := by cases v.type <;> decide
  have hpow : 2 ^ v.type.width = 16 ^ (v.type.width / 4) := by cases v.type <;> rfl
  exact ⟨hcount, hpow ▸ v.bits.isLt⟩

/-- The digits of a pattern are as many as the width asks for, and denote the pattern in either
case. -/
theorem denotes_pattern {digits : List Char}
    (hcase : List.Forall₂ Numeral.Recased (Numeral.hex (v.type.width / 4) v.pattern) digits) :
    Numeral.Denotes 16 digits v.pattern := by
  obtain ⟨hcount, hlt⟩ := v.pattern_lt_hex
  exact (Numeral.denotes_hex hcount hlt).recased hcase

/-- A pattern has no bit above its width. -/
theorem pattern_le_mask (v : Value) : v.pattern ≤ v.type.mask := by
  have hmask : v.type.mask = 2 ^ v.type.width - 1 := by cases v.type <;> rfl
  have hlt : v.pattern < 2 ^ v.type.width := v.bits.isLt
  omega

/-- Whatever writes a value in this sense does so in that of the grammar of literals. -/
theorem WrittenAs.writes (h : v.WrittenAs half) : Literal.Writes half v := by
  cases h with
  | decimal h =>
    exact Literal.writes_of_filter (h.filter_eq.trans (Literal.filter_signedDecimal _))
  | @pattern _ digits _ hx hcase h =>
    have hdenotes := denotes_pattern hcase
    have hplain : digits.filter (· ≠ '_') = digits := by
      rw [List.filter_eq_self]
      intro c hc
      have hmem := List.mem_cons_of_mem '-' (hdenotes.mem hc)
      exact decide_eq_true (Literal.plain_of_mem_digits hmem).2.1
    refine .pattern hx ?_ v.pattern_le_mask rfl
    rw [h.filter_eq, hplain]
    exact .plain hdenotes

/-- No notation of a value has a blank in it, so trimming stops at its ends. -/
theorem WrittenAs.isBlank_eq_false (h : v.WrittenAs half) {c : Char} (hc : c ∈ half) :
    Text.isBlank c = false := by
  cases h with
  | decimal h =>
    rcases h.mem hc with rfl | hc
    · rfl
    · exact (Literal.plain_of_mem_signedDecimal hc).1
  | pattern hx hcase h =>
    rcases List.mem_cons.mp hc with rfl | hc
    · rfl
    rcases List.mem_cons.mp hc with rfl | hc
    · rcases hx with rfl | rfl <;> rfl
    rcases h.mem hc with rfl | hc
    · rfl
    · have hmem := List.mem_cons_of_mem '-' ((denotes_pattern hcase).mem hc)
      exact (Literal.plain_of_mem_digits hmem).1

theorem writtenAs_decimal (v : Value) : v.WrittenAs (Numeral.signedDecimal v.toInt) :=
  .decimal (.refl _)

theorem toList_hex (v : Value) :
    v.hex.toList = '0' :: 'x' :: Numeral.hex (v.type.width / 4) v.pattern := by
  unfold hex
  rw [String.toList_append, @String.toList_ofList (Numeral.hex (v.type.width / 4) v.pattern)]
  rfl

theorem writtenAs_hex (v : Value) : v.WrittenAs v.hex.toList := by
  have hcase : List.Forall₂ Numeral.Recased (Numeral.hex (v.type.width / 4) v.pattern)
      (Numeral.hex (v.type.width / 4) v.pattern) :=
    List.forall₂_same.mpr fun _ _ => Or.inl rfl
  rw [toList_hex]
  exact .pattern (Or.inl rfl) hcase (.refl _)

end Value

/-! ## Whole literals -/

namespace Literal

variable {v : Value} {text : String}

/-- Whether a text is one of the notations of a value behind the name of its type, with blanks put
around either half. -/
def Respells (text : String) (v : Value) : Prop :=
  ∃ a b c d half, text.toList = a ++ v.type.name.toList ++ b ++ ':' :: (c ++ half ++ d) ∧
    (∀ x ∈ a ++ b ++ c ++ d, Text.isBlank x = true) ∧ v.WrittenAs half

/-- Every notation with blanks around its halves is a literal of the grammar. -/
theorem isLiteral_of_respells (h : Respells text v) : IsLiteral text v := by
  obtain ⟨a, b, c, d, half, htext, hblank, hhalf⟩ := h
  simp only [List.mem_append, or_imp, forall_and] at hblank
  obtain ⟨⟨⟨ha, hb⟩, hc⟩, hd⟩ := hblank
  refine ⟨_, _, half, htext, ?_, ?_, ?_, hhalf.writes⟩
  · intro hcolon
    -- A colon is no blank, and no type has one in its name.
    simp only [List.mem_append] at hcolon
    rcases hcolon with (hcolon | hcolon) | hcolon
    · exact absurd (ha ':' hcolon) (by decide)
    · exact (plain_of_mem_name hcolon).2 rfl
    · exact absurd (hb ':' hcolon) (by decide)
  · exact Text.isTrimmed_of_blanks ha hb fun c hc => (plain_of_mem_name hc).1
  · exact Text.isTrimmed_of_blanks hc hd fun c hc => hhalf.isBlank_eq_false hc

/-- Without blanks there is nothing but the two halves. -/
theorem respells_of_writtenAs {half : List Char} (h : v.WrittenAs half)
    (htext : text.toList = v.type.name.toList ++ ':' :: half) : Respells text v := by
  refine ⟨[], [], [], [], half, ?_, ?_, h⟩
  · rw [htext, List.nil_append, List.append_nil, List.nil_append, List.append_nil]
  · intro x hx
    cases hx

/-- The canonical literal is one of the notations. -/
theorem respells_literal (v : Value) : Respells v.literal v :=
  respells_of_writtenAs v.writtenAs_decimal (toList_literal v)

theorem respells_hex (v : Value) : Respells (v.type.name ++ ":" ++ v.hex) v := by
  refine respells_of_writtenAs v.writtenAs_hex ?_
  rw [String.toList_append, String.toList_append, List.append_assoc]
  rfl

theorem read_of_respells (h : Respells text v) : read text = .ok v :=
  read_of_isLiteral (isLiteral_of_respells h)

/-- **All notations of a value are read as it, and its literal stands for all of them.** -/
theorem read_respelled :
    (∀ v : Value, read v.literal = .ok v ∧ read (v.type.name ++ ":" ++ v.hex) = .ok v) ∧
    (∀ text v, Respells text v → read text = .ok v) ∧
    ∀ text text' v v', read text = .ok v → read text' = .ok v' →
      (v = v' ↔ v.literal = v'.literal) := by
  refine ⟨?_, ?_, ?_⟩
  · intro v
    exact ⟨read_of_respells (respells_literal v), read_of_respells (respells_hex v)⟩
  · intro text v h
    exact read_of_respells h
  · intro text text' v v' _ _
    exact ⟨congrArg Value.literal, Value.literal_injective⟩

/-- The least `i64` with underscores about its sign, a pattern in letters of both cases, and the
same pattern in a type where it is another integer. -/
theorem read_respelled_mixed :
    (Respells "\u3000i64 :\t_-_9223_372036854775808_\u2003" ⟨.i64, 0x8000000000000000⟩ ∧
      read "\u3000i64 :\t_-_9223_372036854775808_\u2003" = .ok ⟨.i64, 0x8000000000000000⟩) ∧
    (Respells "i32 :\u00850x_fFFf_FffB_" ⟨.i32, 0xfffffffb⟩ ∧
      read "i32 :\u00850x_fFFf_FffB_" = .ok ⟨.i32, 0xfffffffb⟩) ∧
    (read "u32:0xfffffffb" = .ok ⟨.u32, 0xfffffffb⟩ ∧
      (⟨.i32, 0xfffffffb⟩ : Value).literal ≠ (⟨.u32, 0xfffffffb⟩ : Value).literal) := by
  have hmin : Respells "\u3000i64 :\t_-_9223_372036854775808_\u2003"
      ⟨.i64, 0x8000000000000000⟩ := by
    refine ⟨['\u3000'], [' '], ['\t'], ['\u2003'], "_-_9223_372036854775808_".toList,
      by decide, List.all_eq_true.mp (by decide), .decimal ?_⟩
    have hdecimal : Numeral.signedDecimal (-9223372036854775808) =
        "_-_9223_372036854775808_".toList.filter (· ≠ '_') := by
      decide +kernel
    exact hdecimal ▸ .of_filter _
  have hpattern : Respells "i32 :\u00850x_fFFf_FffB_" ⟨.i32, 0xfffffffb⟩ := by
    refine ⟨[], [' '], ['\u0085'], [], "0x_fFFf_FffB_".toList, by decide,
      List.all_eq_true.mp (by decide), .pattern (Or.inl rfl) ?_ (.of_filter "_fFFf_FffB_".toList)⟩
    decide
  obtain ⟨hread, hrespelled, hcanonical⟩ := read_respelled
  have hunsigned := (hread ⟨.u32, 0xfffffffb⟩).2
  refine ⟨⟨hmin, hrespelled _ _ hmin⟩, ⟨hpattern, hrespelled _ _ hpattern⟩, hunsigned, ?_⟩
  exact mt (hcanonical _ _ _ _ (hread ⟨.i32, 0xfffffffb⟩).1 hunsigned).mpr (by decide)

end Literal

end FixedWidth
