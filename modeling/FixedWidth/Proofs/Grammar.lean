import FixedWidth.Literal
import FixedWidth.Proofs.Meaning
import FixedWidth.Proofs.Numeral

/-!
# The grammar of literals

What a literal is, without a reader: a text with a colon, before the first one the name of a type
and after it a pattern or an integer of that type, both between blanks (`IsLiteral`). Reading is the
decision of this relation, and of its value at the same time:

> `read_of_isLiteral` and `isLiteral_of_read`: a text is read as a value exactly when it is a
> literal of that value.

Each step of reading has its own equivalence: the split at the colon, the trimming, the choice
between the two notations, and the two range tests.
-/

namespace FixedWidth

namespace Text

/-- Whether a text is some core between blanks, the core having none at its ends. -/
def IsTrimmed (text core : List Char) : Prop :=
  ∃ front back, text = front ++ core ++ back ∧
    (∀ c ∈ front, isBlank c = true) ∧ (∀ c ∈ back, isBlank c = true) ∧
    (∀ c ∈ core.head?, isBlank c = false) ∧ (∀ c ∈ core.getLast?, isBlank c = false)

/-- Dropping blanks in front of a core leaves it, with what comes after it. -/
theorem dropWhile_isBlank_append {front core back : List Char}
    (hfront : ∀ c ∈ front, isBlank c = true) (hcore : ∀ c ∈ core.head?, isBlank c = false)
    (hback : ∀ c ∈ back, isBlank c = true) :
    (front ++ (core ++ back)).dropWhile isBlank = if core = [] then [] else core ++ back := by
  rw [List.dropWhile_append_of_pos hfront]
  cases core with
  | nil =>
    rw [List.nil_append, if_pos rfl, ← List.append_nil back, List.dropWhile_append_of_pos hback]
    rfl
  | cons c rest =>
    rw [if_neg (List.cons_ne_nil _ _), List.cons_append,
      List.dropWhile_cons_of_neg (by simp [hcore c rfl])]

/-- Trimming comes to the core. -/
theorem trim_of_isTrimmed {text core : List Char} (h : IsTrimmed text core) : trim text = core := by
  obtain ⟨front, back, rfl, hfront, hback, hhead, hlast⟩ := h
  unfold trim
  rw [List.append_assoc, dropWhile_isBlank_append hfront hhead hback]
  by_cases hcore : core = []
  · rw [if_pos hcore, hcore]
    rfl
  · rw [if_neg hcore, List.reverse_append]
    -- The second pass is the first one on the reversed text, with nothing behind the core.
    have hback' : ∀ c ∈ back.reverse, isBlank c = true := by
      intro c hc
      exact hback c (List.mem_reverse.mp hc)
    have hlast' : ∀ c ∈ core.reverse.head?, isBlank c = false := by
      rw [List.head?_reverse]
      exact hlast
    have hdrop := @dropWhile_isBlank_append back.reverse core.reverse [] hback' hlast' (by simp)
    rw [List.append_nil, if_neg (by simpa using hcore)] at hdrop
    rw [hdrop, List.reverse_reverse]

/-- What is left when blanks in front are dropped begins with no blank. -/
theorem isBlank_head_dropWhile (text : List Char) :
    ∀ c ∈ (text.dropWhile isBlank).head?, isBlank c = false := by
  intro c hc
  have h := List.head?_dropWhile_not isBlank text
  rw [hc] at h
  simpa using h

theorem isTrimmed_trim (text : List Char) : IsTrimmed text (trim text) := by
  have hfront : text.takeWhile isBlank ++ text.dropWhile isBlank = text :=
    List.takeWhile_append_dropWhile
  have hback : trim text ++ ((text.dropWhile isBlank).reverse.takeWhile isBlank).reverse =
      text.dropWhile isBlank := by
    unfold trim
    rw [← List.reverse_append, List.takeWhile_append_dropWhile, List.reverse_reverse]
  refine ⟨text.takeWhile isBlank, ((text.dropWhile isBlank).reverse.takeWhile isBlank).reverse,
    ?_, ?_, ?_, ?_, ?_⟩
  · rw [List.append_assoc, hback, hfront]
  · exact List.all_eq_true.mp List.all_takeWhile
  · exact fun c hc => List.all_eq_true.mp List.all_takeWhile c (List.mem_reverse.mp hc)
  · intro c hc
    refine isBlank_head_dropWhile text c ?_
    -- The core is the beginning of what the first pass left, so both begin alike.
    rw [← hback, List.head?_append, hc]
    rfl
  · intro c hc
    refine isBlank_head_dropWhile (text.dropWhile isBlank).reverse c ?_
    rw [← List.getLast?_reverse]
    exact hc

/-- A text without blanks is the core of what is left by putting blanks around it. -/
theorem isTrimmed_of_blanks {front core back : List Char}
    (hfront : ∀ c ∈ front, isBlank c = true) (hback : ∀ c ∈ back, isBlank c = true)
    (hcore : ∀ c ∈ core, isBlank c = false) : IsTrimmed (front ++ core ++ back) core := by
  refine ⟨front, back, rfl, hfront, hback, ?_, ?_⟩
  · intro c hc
    exact hcore c (List.mem_of_mem_head? hc)
  · intro c hc
    exact hcore c (List.mem_of_mem_getLast? hc)

/-- A text without blanks is its own core. -/
theorem isTrimmed_self {text : List Char} (h : ∀ c ∈ text, isBlank c = false) :
    IsTrimmed text text := by
  have hnone : ∀ c ∈ ([] : List Char), isBlank c = true := by
    intro c hc
    cases hc
  have htrimmed := isTrimmed_of_blanks hnone hnone h
  rwa [List.nil_append, List.append_nil] at htrimmed

/-- Trimming finds the core, and there is only one. -/
theorem trim_eq_iff {text core : List Char} : trim text = core ↔ IsTrimmed text core :=
  ⟨fun h => h ▸ isTrimmed_trim text, trim_of_isTrimmed⟩

end Text

namespace Literal

/-- Whether the text after the colon, without blanks around it, writes a value. Underscores are left
out after the notation has been chosen, so `0_x1` is no pattern. -/
inductive Writes : List Char → Value → Prop where
  /-- A pattern in hexadecimal digits, no wider than the type. -/
  | pattern {x : Char} {digits : List Char} {n : Nat} {v : Value} (hx : x = 'x' ∨ x = 'X')
    (h : Numeral.IsNumeral 16 false (digits.filter (· ≠ '_')) n) (hn : n ≤ v.type.mask)
    (hv : v.pattern = n) : Writes ('0' :: x :: digits) v
  /-- An integer in decimal digits, in the range of the type. -/
  | integer {text : List Char} {n : Int} {v : Value}
    (hx : ∀ x digits, text = '0' :: x :: digits → x ≠ 'x' ∧ x ≠ 'X')
    (h : Numeral.IsNumeral 10 v.type.signed (text.filter (· ≠ '_')) n) (hn : v.type.InRange n)
    (hv : v.toInt = n) : Writes text v

/-- Whether a text is a literal of a value. -/
def IsLiteral (text : String) (v : Value) : Prop :=
  ∃ before after core, text.toList = before ++ ':' :: after ∧ ':' ∉ before ∧
    Text.IsTrimmed before v.type.name.toList ∧ Text.IsTrimmed after core ∧ Writes core v

/-! ## The two halves -/

/-- The split takes the first colon. -/
theorem splitAtColon_append {before : List Char} (h : ':' ∉ before) (after : List Char) :
    splitAtColon (before ++ ':' :: after) = some (before, after) := by
  induction before with
  | nil => rfl
  | cons c rest ih =>
    rw [List.mem_cons, not_or] at h
    rw [List.cons_append, splitAtColon, if_neg (Ne.symm h.1), ih h.2]
    rfl

/-- A text is split at a colon that has none before it. -/
theorem eq_of_splitAtColon {text before after : List Char}
    (h : splitAtColon text = some (before, after)) :
    text = before ++ ':' :: after ∧ ':' ∉ before := by
  induction text generalizing before with
  | nil => cases h
  | cons c rest ih =>
    rw [splitAtColon] at h
    by_cases hc : c = ':'
    · rw [if_pos hc] at h
      obtain ⟨rfl, rfl⟩ := Prod.mk.inj (Option.some.inj h)
      exact ⟨hc ▸ rfl, List.not_mem_nil⟩
    · rw [if_neg hc] at h
      obtain ⟨⟨b, a⟩, hsplit, hhalves⟩ := Option.map_eq_some_iff.mp h
      obtain ⟨rfl, rfl⟩ := Prod.mk.inj hhalves
      obtain ⟨rfl, hnot⟩ := ih hsplit
      refine ⟨rfl, ?_⟩
      rw [List.mem_cons, not_or]
      exact ⟨Ne.symm hc, hnot⟩

/-! ## The two notations -/

/-- The mask is the greatest pattern of the width. -/
theorem mask_eq (type : IntType) : (type.mask : Int) = 2 ^ type.width - 1 := by
  cases type <;> rfl

theorem mask_le_greatestWord (type : IntType) : type.mask ≤ Numeral.greatestWord := by
  cases type <;> decide

theorem pattern_ofInt {type : IntType} {n : Nat} (h : n ≤ type.mask) :
    (Value.ofInt type n).pattern = n := by
  have hmask := mask_eq type
  have hlt : n < 2 ^ type.width := by zify; omega
  show (BitVec.ofInt type.width n).toNat = n
  rw [BitVec.ofInt_natCast, BitVec.toNat_ofNat, Nat.mod_eq_of_lt hlt]

/-- Hexadecimal digits are read as a word of 64 bits first, which no pattern of a type exceeds. -/
theorem ofPattern_eq_ok_iff {type : IntType} {value : String} {digits : List Char} {v : Value} :
    ofPattern type value digits = .ok v ↔ v.type = type ∧
      ∃ n : Nat, Numeral.IsNumeral 16 false (digits.filter (· ≠ '_')) n ∧ n ≤ v.type.mask ∧
        v.pattern = n := by
  have hread : ∀ n : Int, Numeral.read 16 0 Numeral.greatestWord (withoutUnderscores digits) = .ok n
      ↔ Numeral.IsNumeral 16 false (digits.filter (· ≠ '_')) n ∧ 0 ≤ n ∧
        n ≤ Numeral.greatestWord := by
    intro n
    exact Numeral.read_eq_ok_iff (by decide) (Int.le_refl 0) (by decide)
  -- A pattern of the type is never refused for its word.
  have hword := mask_le_greatestWord type
  unfold ofPattern
  refine ⟨?_, ?_⟩
  · intro h
    cases hn : Numeral.read 16 0 Numeral.greatestWord (withoutUnderscores digits) with
    | error cause =>
      rw [hn] at h
      cases h
    | ok n =>
      rw [hn] at h
      obtain ⟨hnumeral, hnonneg, -⟩ := (hread n).mp hn
      by_cases hwide : n > type.mask
      · simp only [if_pos hwide] at h
        cases h
      · simp only [if_neg hwide] at h
        obtain rfl := Except.ok.inj h
        obtain ⟨k, rfl⟩ := Int.eq_ofNat_of_zero_le hnonneg
        have hle : k ≤ type.mask := by omega
        exact ⟨rfl, k, hnumeral, hle, pattern_ofInt hle⟩
  · intro h
    obtain ⟨rfl, n, hnumeral, hle, hv⟩ := h
    rw [(hread n).mpr ⟨hnumeral, by omega, by omega⟩]
    show (if (n : Int) > v.type.mask then _ else _) = _
    rw [if_neg (by omega), ← hv]
    exact congrArg Except.ok (Value.ofInt_pattern v)

/-- A minus sign may stand where the range goes below zero. -/
theorem minValue_neg_iff (type : IntType) : decide (type.minValue < 0) = type.signed := by
  cases type <;> decide

/-- A decimal is read as the value of its integer, if that is in the range of the type. -/
theorem ofDecimal_eq_ok_iff {type : IntType} {value : String} {digits : List Char} {v : Value} :
    ofDecimal type value digits = .ok v ↔ v.type = type ∧
      ∃ n : Int, Numeral.IsNumeral 10 v.type.signed (digits.filter (· ≠ '_')) n ∧
        v.type.InRange n ∧ v.toInt = n := by
  have hread : ∀ n : Int,
      Numeral.read 10 type.minValue type.maxValue (withoutUnderscores digits) = .ok n ↔
        Numeral.IsNumeral 10 type.signed (digits.filter (· ≠ '_')) n ∧ type.InRange n := by
    intro n
    rw [Numeral.read_eq_ok_iff (by decide) type.minValue_nonpos type.maxValue_nonneg,
      minValue_neg_iff]
    rfl
  unfold ofDecimal
  refine ⟨?_, ?_⟩
  · intro h
    cases hn : Numeral.read 10 type.minValue type.maxValue (withoutUnderscores digits) with
    | error cause =>
      rw [hn] at h
      cases h
    | ok n =>
      rw [hn] at h
      obtain rfl := Except.ok.inj h
      obtain ⟨hnumeral, hrange⟩ := (hread n).mp hn
      exact ⟨rfl, n, hnumeral, hrange, Value.toInt_ofInt hrange⟩
  · intro h
    obtain ⟨rfl, n, hnumeral, hrange, rfl⟩ := h
    rw [(hread v.toInt).mpr ⟨hnumeral, hrange⟩]
    exact congrArg Except.ok (Value.ofInt_toInt v)

/-- Behind `0x` there is a pattern and nothing else. -/
theorem writes_pattern_iff {x : Char} (hx : x = 'x' ∨ x = 'X') {digits : List Char} {v : Value} :
    Writes ('0' :: x :: digits) v ↔
      ∃ n : Nat, Numeral.IsNumeral 16 false (digits.filter (· ≠ '_')) n ∧ n ≤ v.type.mask ∧
        v.pattern = n := by
  refine ⟨?_, ?_⟩
  · intro h
    cases h with
    | pattern _ hn hle hv => exact ⟨_, hn, hle, hv⟩
    | integer hne =>
      obtain ⟨h1, h2⟩ := hne x digits rfl
      exact absurd hx (by simp [h1, h2])
  · intro h
    obtain ⟨n, hn, hle, hv⟩ := h
    exact .pattern hx hn hle hv

/-- Without `0x` in front, a text writes a value as a decimal. -/
theorem writes_integer_iff {text : List Char} {v : Value}
    (hx : ∀ x digits, text = '0' :: x :: digits → x ≠ 'x' ∧ x ≠ 'X') :
    Writes text v ↔
      ∃ n : Int, Numeral.IsNumeral 10 v.type.signed (text.filter (· ≠ '_')) n ∧
        v.type.InRange n ∧ v.toInt = n := by
  refine ⟨?_, ?_⟩
  · intro h
    cases h with
    | pattern hprefix =>
      obtain ⟨h1, h2⟩ := hx _ _ rfl
      exact absurd hprefix (by simp [h1, h2])
    | integer _ hn hrange hv => exact ⟨_, hn, hrange, hv⟩
  · intro h
    obtain ⟨n, hn, hrange, hv⟩ := h
    exact .integer hx hn hrange hv

/-- What is read behind the type is what the grammar writes there. -/
theorem ofType_eq_ok_iff {type : IntType} {core : List Char} {v : Value} :
    ofType type (String.ofList core) = .ok v ↔ v.type = type ∧ Writes core v := by
  unfold ofType
  rw [String.toList_ofList]
  split
  next digits => rw [ofPattern_eq_ok_iff, writes_pattern_iff (Or.inl rfl)]
  next digits => rw [ofPattern_eq_ok_iff, writes_pattern_iff (Or.inr rfl)]
  next hlower hupper =>
    rw [ofDecimal_eq_ok_iff, writes_integer_iff]
    intro x digits hcore
    refine ⟨?_, ?_⟩
    · intro hx
      exact hlower digits (hx ▸ hcore)
    · intro hx
      exact hupper digits (hx ▸ hcore)

/-! ## Whole literals -/

/-- Two halves are read as a value if the first names its type and the second writes it. -/
theorem ofHalves_eq_ok_iff {name core : List Char} {v : Value} :
    ofHalves (String.ofList name) (String.ofList core) = .ok v ↔
      name = v.type.name.toList ∧ Writes core v := by
  unfold ofHalves
  cases h : IntType.ofName? (String.ofList name) with
  | none =>
    refine ⟨?_, ?_⟩
    · intro he
      cases he
    · intro he
      rw [he.1, String.ofList_toList, IntType.ofName?_name] at h
      cases h
  | some type =>
    have hname : type.name = String.ofList name := IntType.name_of_ofName? h
    show ofType type (String.ofList core) = .ok v ↔ _
    rw [ofType_eq_ok_iff]
    refine ⟨fun ⟨ht, hw⟩ => ⟨?_, hw⟩, fun ⟨hn, hw⟩ => ⟨?_, hw⟩⟩
    · rw [ht, hname, String.toList_ofList]
    · rw [hn, String.ofList_toList] at hname
      exact (IntType.name_injective hname).symm

/-- What is read is a literal of the grammar. -/
theorem isLiteral_of_read {text : String} {v : Value} (h : read text = .ok v) :
    IsLiteral text v := by
  unfold read at h
  cases hsplit : splitAtColon text.toList with
  | none =>
    rw [hsplit] at h
    cases h
  | some halves =>
    obtain ⟨before, after⟩ := halves
    rw [hsplit] at h
    obtain ⟨htext, hcolon⟩ := eq_of_splitAtColon hsplit
    obtain ⟨hname, hwrites⟩ := ofHalves_eq_ok_iff.mp h
    exact ⟨before, after, Text.trim after, htext, hcolon, Text.trim_eq_iff.mp hname,
      Text.isTrimmed_trim after, hwrites⟩

/-- Every literal of the grammar is read. -/
theorem read_of_isLiteral {text : String} {v : Value} (h : IsLiteral text v) :
    read text = .ok v := by
  obtain ⟨before, after, core, htext, hcolon, hbefore, hafter, hwrites⟩ := h
  unfold read
  rw [htext, splitAtColon_append hcolon]
  show ofHalves (String.ofList (Text.trim before)) (String.ofList (Text.trim after)) = _
  rw [Text.trim_of_isTrimmed hbefore, Text.trim_of_isTrimmed hafter]
  exact ofHalves_eq_ok_iff.mpr ⟨rfl, hwrites⟩

/-- No sign and no digit is a blank, an underscore or the letter of a prefix. -/
theorem plain_of_mem_digits {c : Char}
    (hc : c ∈ '-' :: (Numeral.lowerDigits ++ Numeral.upperDigits)) :
    Text.isBlank c = false ∧ c ≠ '_' ∧ c ≠ 'x' ∧ c ≠ 'X' := by
  have hall : ('-' :: (Numeral.lowerDigits ++ Numeral.upperDigits)).all
      (fun c => Text.isBlank c = false ∧ c ≠ '_' ∧ c ≠ 'x' ∧ c ≠ 'X') = true := by decide
  exact of_decide_eq_true (List.all_eq_true.mp hall c hc)

/-- A written integer has no character in it that reading would treat in a way of its own. -/
theorem plain_of_mem_signedDecimal {n : Int} {c : Char} (hc : c ∈ Numeral.signedDecimal n) :
    Text.isBlank c = false ∧ c ≠ '_' ∧ c ≠ 'x' ∧ c ≠ 'X' :=
  plain_of_mem_digits (Numeral.mem_of_mem_signedDecimal hc)

theorem plain_of_mem_name {type : IntType} {c : Char} (hc : c ∈ type.name.toList) :
    Text.isBlank c = false ∧ c ≠ ':' := by
  have hall : IntType.all.all (fun type =>
      type.name.toList.all fun c => Text.isBlank c = false ∧ c ≠ ':') = true := by decide
  have htype := List.all_eq_true.mp hall type type.mem_all
  exact of_decide_eq_true (List.all_eq_true.mp htype c hc)

/-- The decimal of a value is a numeral of its type, with a sign only where the type has one. -/
theorem isNumeral_decimal (v : Value) :
    Numeral.IsNumeral 10 v.type.signed (Numeral.signedDecimal v.toInt) v.toInt := by
  refine Numeral.isNumeral_signedDecimal ?_
  intro hneg
  rw [← minValue_neg_iff, decide_eq_true_eq]
  exact Int.lt_of_le_of_lt v.toInt_inRange.1 hneg

/-- A text that is the decimal of a value once its underscores are left out writes the value. The
letter of a prefix would be left, and no decimal has one. -/
theorem writes_of_filter {text : List Char} {v : Value}
    (h : text.filter (· ≠ '_') = Numeral.signedDecimal v.toInt) : Writes text v := by
  refine .integer ?_ (h.symm ▸ isNumeral_decimal v) v.toInt_inRange rfl
  intro x digits htext
  by_cases hx : x = '_'
  · subst hx
    exact ⟨by decide, by decide⟩
  · have hmem : x ∈ Numeral.signedDecimal v.toInt := by
      rw [← h, htext, List.mem_filter]
      exact ⟨by simp, decide_eq_true hx⟩
    exact (plain_of_mem_signedDecimal hmem).2.2

theorem filter_signedDecimal (n : Int) :
    (Numeral.signedDecimal n).filter (· ≠ '_') = Numeral.signedDecimal n :=
  List.filter_eq_self.mpr fun _ hc => decide_eq_true (plain_of_mem_signedDecimal hc).2.1

theorem toList_literal (v : Value) :
    v.literal.toList = v.type.name.toList ++ ':' :: Numeral.signedDecimal v.toInt := by
  unfold Value.literal Value.decimal
  rw [String.toList_append, String.toList_append,
    @String.toList_ofList (Numeral.signedDecimal v.toInt), List.append_assoc]
  rfl

theorem isLiteral_literal (v : Value) : IsLiteral v.literal v := by
  refine ⟨v.type.name.toList, Numeral.signedDecimal v.toInt, Numeral.signedDecimal v.toInt,
    toList_literal v, ?_, ?_, ?_, writes_of_filter (filter_signedDecimal _)⟩
  · intro hmem
    exact (plain_of_mem_name hmem).2 rfl
  · exact Text.isTrimmed_self fun c hc => (plain_of_mem_name hc).1
  · exact Text.isTrimmed_self fun c hc => (plain_of_mem_signedDecimal hc).1

/-- What a value is written as is read as the value. -/
theorem read_literal (v : Value) : read v.literal = .ok v := read_of_isLiteral (isLiteral_literal v)

end Literal

/-- A value is told by its canonical literal. -/
theorem Value.literal_injective {v w : Value} (h : v.literal = w.literal) : v = w := by
  have hread := Literal.read_literal v
  rw [h, Literal.read_literal] at hread
  exact (Except.ok.inj hread).symm

namespace Literal

/-- **Reading accepts the literals and nothing else, each with its value.** Zeros in front of a row
of digits, however many, do not change what it denotes. -/
theorem read_eq_ok_iff_isLiteral :
    (∀ text v, read text = .ok v ↔ IsLiteral text v) ∧
    ∀ radix digits n count, 0 < radix → Numeral.Denotes radix digits n →
      Numeral.Denotes radix (List.replicate count '0' ++ digits) n :=
  ⟨fun _ _ => ⟨isLiteral_of_read, read_of_isLiteral⟩,
    fun _ _ _ count hradix h => h.replicate_zero_append hradix count⟩

/-- A pattern between blanks, with underscores around a plus sign; and digits behind more zeros than
any word has places. -/
theorem read_eq_ok_iff_isLiteral_padded :
    (0 < 16 ∧ Numeral.Denotes 16 ['f', 'F'] 255) ∧
      IsLiteral "\u3000i32 :\t0x_+00_ffFFfffe " ⟨.i32, 0xfffffffe⟩ ∧
      Numeral.Denotes 16 (List.replicate 40 '0' ++ ['f', 'F']) 255 := by
  have hdigits : Numeral.Denotes 16 ['f', 'F'] 255 :=
    ⟨List.cons_ne_nil _ _, [15, 15],
      .cons ⟨by decide, Or.inl rfl⟩ (.cons ⟨by decide, Or.inr rfl⟩ .nil), rfl⟩
  exact ⟨⟨by decide, hdigits⟩, (read_eq_ok_iff_isLiteral.1 _ _).mp rfl,
    read_eq_ok_iff_isLiteral.2 16 ['f', 'F'] 255 40 (by decide) hdigits⟩

end Literal

end FixedWidth
