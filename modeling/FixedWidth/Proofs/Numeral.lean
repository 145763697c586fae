import FixedWidth.Numeral
import Mathlib.Data.List.Forall2
import Mathlib.Data.Nat.Digits.Defs

/-!
# What numerals denote

The number that a row of digits denotes is `Nat.ofDigits` of it, last digit first, and a numeral is
such a row with a sign in front. Neither speaks of a range. Reading checks the range at every digit;
since a number only moves away from zero while digits are appended, that is the same as checking the
number at the end (`extend_zero_eq_ok_iff`), and so

> `read_eq_ok_iff`: a text is read as `n` exactly when it is a numeral of `n` and `n` is in range.

In the other direction `isNumeral_signedDecimal` says that the written form of an integer is a
numeral of it.
-/

namespace FixedWidth.Numeral

/-- The sixteen digits, with letters in lower case. -/
def lowerDigits : List Char :=
  ['0', '1', '2', '3', '4', '5', '6', '7', '8', '9', 'a', 'b', 'c', 'd', 'e', 'f']

/-- The sixteen digits, with letters in upper case. -/
def upperDigits : List Char :=
  ['0', '1', '2', '3', '4', '5', '6', '7', '8', '9', 'A', 'B', 'C', 'D', 'E', 'F']

/-- Whether a character writes a digit of a radix. -/
def IsDigit (radix : Nat) (c : Char) (d : Nat) : Prop :=
  d < radix ∧ (lowerDigits[d]? = some c ∨ upperDigits[d]? = some c)

/-- Whether a text is one or more digits of a radix that denote a number. -/
def Denotes (radix : Nat) (text : List Char) (n : Nat) : Prop :=
  text ≠ [] ∧ ∃ digits, List.Forall₂ (IsDigit radix) text digits ∧
    Nat.ofDigits radix digits.reverse = n

/-- Whether a text is an integer: digits after a plus sign or none, or after a minus sign where one
may stand. -/
inductive IsNumeral (radix : Nat) (minusAllowed : Bool) : List Char → Int → Prop where
  | plain {text : List Char} {n : Nat} (h : Denotes radix text n) :
    IsNumeral radix minusAllowed text n
  | plus {text : List Char} {n : Nat} (h : Denotes radix text n) :
    IsNumeral radix minusAllowed ('+' :: text) n
  | minus {text : List Char} {n : Nat} (allowed : minusAllowed = true) (h : Denotes radix text n) :
    IsNumeral radix minusAllowed ('-' :: text) (-n)

/-! ## Digits -/

/-- A character between two ends of a run of consecutive characters stands in the table of the run
at its distance from the first. -/
theorem getElem?_of_run {table : List Char} {start stop c : Char} {length offset : Nat}
    (htable : ∀ k < length, table[k + offset]? = some (Char.ofNat (start.toNat + k)))
    (hlength : stop.toNat < start.toNat + length) (h : start ≤ c ∧ c ≤ stop) :
    table[c.toNat - start.toNat + offset]? = some c := by
  have hlow : start.toNat ≤ c.toNat := h.1
  have hhigh : c.toNat ≤ stop.toNat := h.2
  rw [htable (c.toNat - start.toNat) (by omega), Nat.add_sub_cancel' hlow, Char.ofNat_toNat]

/-- What is worth something as a digit stands in one of the tables, at the place of its worth. -/
theorem getElem?_of_digitValue {c : Char} {d : Nat} (h : digitValue c = some d) :
    lowerDigits[d]? = some c ∨ upperDigits[d]? = some c := by
  unfold digitValue at h
  split at h
  next hrange =>
    have hrun : ∀ k < 10, lowerDigits[k + 0]? = some (Char.ofNat ('0'.toNat + k)) := by decide
    obtain rfl := Option.some.inj h
    exact Or.inl (getElem?_of_run hrun (by decide) hrange)
  next =>
    split at h
    next hrange =>
      have hrun : ∀ k < 6, lowerDigits[k + 10]? = some (Char.ofNat ('a'.toNat + k)) := by decide
      obtain rfl := Option.some.inj h
      exact Or.inl (getElem?_of_run hrun (by decide) hrange)
    next =>
      split at h
      next hrange =>
        have hrun : ∀ k < 6, upperDigits[k + 10]? = some (Char.ofNat ('A'.toNat + k)) := by decide
        obtain rfl := Option.some.inj h
        exact Or.inr (getElem?_of_run hrun (by decide) hrange)
      next => cases h

/-- A table of sixteen characters that are each worth their place says what they are worth. -/
theorem digitValue_of_getElem? {table : List Char} {c : Char} {d : Nat}
    (htable : ∀ d < 16, (table[d]?).bind digitValue = some d) (hlength : table.length = 16)
    (h : table[d]? = some c) : digitValue c = some d := by
  have hlt := (List.getElem?_eq_some_iff.mp h).1
  have hd := htable d (hlength ▸ hlt)
  rw [h] at hd
  exact hd

/-- The two tables say what every character is worth. -/
theorem digitValue_eq_some_iff {c : Char} {d : Nat} :
    digitValue c = some d ↔ lowerDigits[d]? = some c ∨ upperDigits[d]? = some c := by
  refine ⟨getElem?_of_digitValue, ?_⟩
  intro h
  rcases h with h | h
  · exact digitValue_of_getElem? (by decide) rfl h
  · exact digitValue_of_getElem? (by decide) rfl h

theorem digitIn_eq_some_iff {radix : Nat} {c : Char} {d : Nat} :
    digitIn radix c = some d ↔ IsDigit radix c d := by
  unfold digitIn IsDigit
  rw [Option.filter_eq_some_iff, digitValue_eq_some_iff, decide_eq_true_eq, and_comm]

/-- What holds of every character in the two tables holds of every digit. -/
theorem IsDigit.mem {radix : Nat} {c : Char} {d : Nat} (h : IsDigit radix c d) :
    c ∈ lowerDigits ++ upperDigits := by
  rcases h.2 with hd | hd
  · exact List.mem_append_left _ (List.mem_of_getElem? hd)
  · exact List.mem_append_right _ (List.mem_of_getElem? hd)

theorem isDigit_digitChar {radix d : Nat} (hd : d < radix) (h16 : d < 16) :
    IsDigit radix (digitChar d) d := by
  have hall : ∀ d < 16, lowerDigits[d]? = some (digitChar d) := by decide
  exact ⟨hd, Or.inl (hall d h16)⟩

/-! ## Rows of digits -/

/-- The number that digits denote, read from left to right. -/
theorem ofDigits_reverse (radix : Nat) (digits : List Nat) :
    Nat.ofDigits radix digits.reverse = digits.foldl (fun n d => n * radix + d) 0 := by
  rw [Nat.ofDigits_eq_foldr, List.foldr_reverse]
  congr 1
  funext n d
  rw [Nat.cast_id]
  ring

/-- Appending digits to a number never makes it smaller. -/
theorem le_foldl {radix : Nat} (hradix : 0 < radix) (digits : List Nat) (m : Nat) :
    m ≤ digits.foldl (fun n d => n * radix + d) m := by
  induction digits generalizing m with
  | nil => exact Nat.le_refl m
  | cons d digits ih =>
    have hstep : m ≤ m * radix + d :=
      Nat.le_trans (Nat.le_mul_of_pos_right m hradix) (Nat.le_add_right _ d)
    exact Nat.le_trans hstep (ih (m * radix + d))

/-- One more digit moves a number with a sign as it moves the number without. -/
theorem sign_mul_extend (sign : Int) (m radix d : Nat) :
    sign * m * radix + sign * d = sign * ((m * radix + d : Nat) : Int) := by
  push_cast
  ring

/-- What is read on from a number of the range is its continuation by digits, and in range again. -/
theorem exists_digits_of_extend {radix : Nat} {lower upper sign : Int} {text : List Char} {m : Nat}
    {n : Int} (hm : lower ≤ sign * m ∧ sign * m ≤ upper)
    (h : extend radix lower upper sign (sign * m) text = .ok n) :
    ∃ digits, List.Forall₂ (IsDigit radix) text digits ∧
      sign * digits.foldl (fun n d => n * radix + d) m = n ∧ lower ≤ n ∧ n ≤ upper := by
  induction text generalizing m with
  | nil =>
    have hn : sign * m = n := Except.ok.inj h
    exact ⟨[], .nil, hn, hn ▸ hm⟩
  | cons c rest ih =>
    unfold extend at h
    cases hd : digitIn radix c with
    | none =>
      rw [hd] at h
      cases h
    | some d =>
      rw [hd] at h
      simp only [sign_mul_extend] at h
      split at h
      next => cases h
      next hupper =>
        split at h
        next => cases h
        next hlower =>
          -- Both bounds have been asked, so what is read so far is in range again.
          obtain ⟨digits, hrest, hn⟩ := ih ⟨by omega, by omega⟩ h
          exact ⟨d :: digits, .cons (digitIn_eq_some_iff.mp hd) hrest, hn⟩

/-- Digits whose number is in range are read, although the range is checked at each of them. -/
theorem extend_of_digits {radix : Nat} {lower upper sign : Int} (hradix : 0 < radix)
    (hlower : lower ≤ 0) (hupper : 0 ≤ upper) (hsign : sign = 1 ∨ sign = -1)
    {text : List Char} {digits : List Nat} (h : List.Forall₂ (IsDigit radix) text digits) {m : Nat}
    (hrange : lower ≤ sign * digits.foldl (fun n d => n * radix + d) m ∧
      sign * digits.foldl (fun n d => n * radix + d) m ≤ upper) :
    extend radix lower upper sign (sign * m) text =
      .ok (sign * digits.foldl (fun n d => n * radix + d) m) := by
  induction h generalizing m with
  | nil => rfl
  | @cons c d rest digits hc _ ih =>
    rw [List.foldl_cons] at hrange ⊢
    -- The sign never changes, so no number on the way is further from zero than the last one.
    have hle := le_foldl hradix digits (m * radix + d)
    have hnext : lower ≤ sign * ((m * radix + d : Nat) : Int) ∧
        sign * ((m * radix + d : Nat) : Int) ≤ upper := by
      rcases hsign with rfl | rfl
      · omega
      · omega
    unfold extend
    rw [digitIn_eq_some_iff.mpr hc]
    simp only [sign_mul_extend]
    rw [if_neg (by omega), if_neg (by omega)]
    exact ih hrange

/-- What digits denote, in the order in which they are read. -/
theorem denotes_iff {radix n : Nat} {text : List Char} (hne : text ≠ []) :
    Denotes radix text n ↔
      ∃ digits, List.Forall₂ (IsDigit radix) text digits ∧
        digits.foldl (fun n d => n * radix + d) 0 = n := by
  unfold Denotes
  simp only [ofDigits_reverse]
  exact ⟨fun h => h.2, fun h => ⟨hne, h⟩⟩

/-- Reading from the start, with the sign taken off. -/
theorem extend_zero_eq_ok_iff {radix : Nat} {lower upper sign : Int} (hradix : 0 < radix)
    (hlower : lower ≤ 0) (hupper : 0 ≤ upper) (hsign : sign = 1 ∨ sign = -1)
    {text : List Char} (hne : text ≠ []) {n : Int} :
    extend radix lower upper sign 0 text = .ok n ↔
      (∃ k, Denotes radix text k ∧ sign * k = n) ∧ lower ≤ n ∧ n ≤ upper := by
  have hzero : sign * (0 : Nat) = 0 := by rw [Int.natCast_zero, Int.mul_zero]
  rw [← hzero]
  refine ⟨?_, ?_⟩
  · intro h
    obtain ⟨digits, hdigits, hn, hrange⟩ := exists_digits_of_extend (by omega) h
    exact ⟨⟨_, (denotes_iff hne).mpr ⟨digits, hdigits, rfl⟩, hn⟩, hrange⟩
  · intro h
    obtain ⟨⟨k, hk, rfl⟩, hrange⟩ := h
    obtain ⟨digits, hdigits, rfl⟩ := (denotes_iff hne).mp hk
    exact extend_of_digits hradix hlower hupper hsign hdigits hrange

/-- Zeros in front, however many, say nothing. -/
theorem Denotes.replicate_zero_append {radix n : Nat} {text : List Char} (hradix : 0 < radix)
    (h : Denotes radix text n) (count : Nat) :
    Denotes radix (List.replicate count '0' ++ text) n := by
  obtain ⟨hne, hdigits⟩ := h
  induction count with
  | zero => exact ⟨hne, hdigits⟩
  | succ count ih =>
    obtain ⟨-, digits, hall, hn⟩ := ih
    refine ⟨List.cons_ne_nil _ _, 0 :: digits, .cons ⟨hradix, Or.inl rfl⟩ hall, ?_⟩
    rw [ofDigits_reverse] at hn ⊢
    rw [List.foldl_cons, Nat.zero_mul]
    exact hn

/-- Every character of a row of digits is in one of the two tables. -/
theorem Denotes.mem {radix n : Nat} {text : List Char} (h : Denotes radix text n) {c : Char}
    (hc : c ∈ text) : c ∈ lowerDigits ++ upperDigits := by
  obtain ⟨-, digits, hall, -⟩ := h
  clear * - hall hc
  induction hall with
  | nil => cases hc
  | cons hd _ ih =>
    rcases List.mem_cons.mp hc with hc | hc
    · exact hc ▸ hd.mem
    · exact ih hc

/-! ## Signs -/

/-- No character that is no digit begins a row of digits. -/
theorem not_denotes_cons {radix n : Nat} {c : Char} {rest : List Char}
    (hc : digitValue c = none) : ¬ Denotes radix (c :: rest) n := by
  intro h
  obtain ⟨-, digits, hdigits, -⟩ := h
  cases hdigits with
  | cons hd _ =>
    rw [digitValue_eq_some_iff.mpr hd.2] at hc
    cases hc

/-- After a plus sign there must be digits. -/
theorem isNumeral_plus_iff {radix : Nat} {minusAllowed : Bool} {text : List Char} {n : Int} :
    IsNumeral radix minusAllowed ('+' :: text) n ↔ ∃ k, Denotes radix text k ∧ 1 * (k : Int) = n := by
  refine ⟨?_, ?_⟩
  · intro h
    cases h with
    | plain hk => exact absurd hk (not_denotes_cons (by decide))
    | plus hk => exact ⟨_, hk, Int.one_mul _⟩
  · intro h
    obtain ⟨k, hk, rfl⟩ := h
    rw [Int.one_mul]
    exact .plus hk

theorem isNumeral_minus_iff {radix : Nat} {minusAllowed : Bool} {text : List Char} {n : Int} :
    IsNumeral radix minusAllowed ('-' :: text) n ↔
      minusAllowed = true ∧ ∃ k, Denotes radix text k ∧ -1 * (k : Int) = n := by
  refine ⟨?_, ?_⟩
  · intro h
    cases h with
    | plain hk => exact absurd hk (not_denotes_cons (by decide))
    | minus hallowed hk => exact ⟨hallowed, _, hk, Int.neg_one_mul _⟩
  · intro h
    obtain ⟨hallowed, k, hk, rfl⟩ := h
    rw [Int.neg_one_mul]
    exact .minus hallowed hk

/-- What begins with no sign must be digits. -/
theorem isNumeral_unsigned_iff {radix : Nat} {minusAllowed : Bool} {text : List Char} {n : Int}
    (hplus : ∀ rest, text ≠ '+' :: rest) (hminus : ∀ rest, text ≠ '-' :: rest) :
    IsNumeral radix minusAllowed text n ↔ ∃ k, Denotes radix text k ∧ 1 * (k : Int) = n := by
  refine ⟨?_, ?_⟩
  · intro h
    cases h with
    | plain hk => exact ⟨_, hk, Int.one_mul _⟩
    | plus hk => exact absurd rfl (hplus _)
    | minus _ hk => exact absurd rfl (hminus _)
  · intro h
    obtain ⟨k, hk, rfl⟩ := h
    rw [Int.one_mul]
    exact .plain hk

/-- Reading accepts the numerals of the range and nothing else. -/
theorem read_eq_ok_iff {radix : Nat} {lower upper : Int} (hradix : 0 < radix)
    (hlower : lower ≤ 0) (hupper : 0 ≤ upper) {text : List Char} {n : Int} :
    read radix lower upper text = .ok n ↔
      IsNumeral radix (decide (lower < 0)) text n ∧ lower ≤ n ∧ n ≤ upper := by
  have hempty : ∀ k, ¬ Denotes radix [] k := by
    intro k h
    exact h.1 rfl
  -- The cases are those of `read`: no text, a sign alone, and digits behind either sign or none.
  unfold read
  split
  next =>
    refine iff_of_false (fun h => by cases h) ?_
    intro h
    cases h.1 with
    | plain hk => exact hempty _ hk
  next =>
    refine iff_of_false (fun h => by cases h) ?_
    intro h
    obtain ⟨k, hk, -⟩ := isNumeral_plus_iff.mp h.1
    exact hempty k hk
  next =>
    refine iff_of_false (fun h => by cases h) ?_
    intro h
    obtain ⟨-, k, hk, -⟩ := isNumeral_minus_iff.mp h.1
    exact hempty k hk
  next digits hne =>
    rw [isNumeral_plus_iff]
    exact extend_zero_eq_ok_iff hradix hlower hupper (Or.inl rfl) (fun he => hne (he ▸ rfl))
  next digits hne =>
    rw [isNumeral_minus_iff, decide_eq_true_eq]
    by_cases hneg : lower < 0
    · rw [if_pos hneg, and_iff_right hneg]
      exact extend_zero_eq_ok_iff hradix hlower hupper (Or.inr rfl) (fun he => hne (he ▸ rfl))
    · rw [if_neg hneg]
      exact iff_of_false (fun h => by cases h) fun h => hneg h.1.1
  next hnil hplus0 hminus0 hplus hminus =>
    rw [isNumeral_unsigned_iff hplus hminus]
    exact extend_zero_eq_ok_iff hradix hlower hupper (Or.inl rfl) hnil

/-! ## Written numbers -/

/-- One more digit at the end, behind a row of them or behind nothing. -/
theorem denotes_concat {radix m d : Nat} {c : Char} {text : List Char} {digits : List Nat}
    (hall : List.Forall₂ (IsDigit radix) text digits)
    (hm : Nat.ofDigits radix digits.reverse = m) (hc : IsDigit radix c d) :
    Denotes radix (text ++ [c]) (m * radix + d) := by
  refine ⟨List.append_ne_nil_of_right_ne_nil _ (List.cons_ne_nil _ _), digits ++ [d],
    List.rel_append hall (.cons hc .nil), ?_⟩
  rw [ofDigits_reverse] at hm ⊢
  rw [List.foldl_append, hm, List.foldl_cons, List.foldl_nil]

/-- The decimal form of a number denotes it. -/
theorem denotes_decimal (n : Nat) : Denotes 10 (decimal n) n := by
  fun_induction decimal n with
  | case1 n h =>
    refine ⟨List.cons_ne_nil _ _, [n], .cons (isDigit_digitChar h (by omega)) .nil, ?_⟩
    rw [ofDigits_reverse, List.foldl_cons, List.foldl_nil, Nat.zero_mul, Nat.zero_add]
  | case2 n h ih =>
    obtain ⟨-, digits, hall, hn⟩ := ih
    have hlast : IsDigit 10 (digitChar (n % 10)) (n % 10) :=
      isDigit_digitChar (Nat.mod_lt n (by decide)) (by omega)
    have hconcat := denotes_concat hall hn hlast
    rwa [Nat.div_add_mod'] at hconcat

/-- A written number has nothing but digits in it. -/
theorem not_mem_decimal {c : Char} (hc : c ∉ lowerDigits ++ upperDigits) (n : Nat) :
    c ∉ decimal n := by
  intro hmem
  exact hc ((denotes_decimal n).mem hmem)

/-- The digits of a number tell it, since they are read back as it. -/
theorem decimal_injective {m n : Nat} (h : decimal m = decimal n) : m = n := by
  have hread : ∀ k ≤ max m n, read 10 0 (max m n : Nat) (decimal k) = .ok (k : Int) := by
    intro k hk
    refine (read_eq_ok_iff (by decide) (Int.le_refl 0) (Int.natCast_nonneg _)).mpr ?_
    exact ⟨.plain (denotes_decimal k), Int.natCast_nonneg k, Int.ofNat_le.mpr hk⟩
  have hm := hread m (Nat.le_max_left m n)
  rw [h, hread n (Nat.le_max_right m n), Except.ok.injEq] at hm
  exact Int.ofNat_inj.mp hm.symm

/-- As many hexadecimal digits as a number needs, zeros in front included, denote all of it. -/
theorem exists_digits_hex {count n : Nat} (h : n < 16 ^ count) :
    ∃ digits, List.Forall₂ (IsDigit 16) (hex count n) digits ∧
      Nat.ofDigits 16 digits.reverse = n := by
  induction count generalizing n with
  | zero =>
    have hn : n = 0 := by omega
    exact ⟨[], .nil, hn.symm⟩
  | succ count ih =>
    have hrest : n / 16 < 16 ^ count := Nat.div_lt_of_lt_mul (by rwa [← Nat.pow_succ'])
    obtain ⟨digits, hall, hn⟩ := ih hrest
    have hlast : IsDigit 16 (digitChar (n % 16)) (n % 16) :=
      isDigit_digitChar (Nat.mod_lt n (by decide)) (Nat.mod_lt n (by decide))
    have hconcat := denotes_concat hall hn hlast
    rw [Nat.div_add_mod'] at hconcat
    exact hconcat.2

theorem denotes_hex {count n : Nat} (hcount : 0 < count) (h : n < 16 ^ count) :
    Denotes 16 (hex count n) n := by
  refine ⟨?_, exists_digits_hex h⟩
  intro hnil
  have hlength := length_hex count n
  rw [hnil] at hlength
  exact Nat.ne_of_lt hcount hlength

/-- The written form of an integer is a numeral of it, where its sign may be written. -/
theorem isNumeral_signedDecimal {minusAllowed : Bool} {n : Int}
    (h : n < 0 → minusAllowed = true) : IsNumeral 10 minusAllowed (signedDecimal n) n := by
  unfold signedDecimal
  by_cases hneg : n < 0
  · rw [if_pos hneg, isNumeral_minus_iff]
    exact ⟨h hneg, n.natAbs, denotes_decimal n.natAbs, by omega⟩
  · rw [if_neg hneg]
    have habs : (n.natAbs : Int) = n := by omega
    have hplain : IsNumeral 10 minusAllowed (decimal n.natAbs) n.natAbs :=
      .plain (denotes_decimal n.natAbs)
    rw [habs] at hplain
    exact hplain

/-- The characters of a written integer are digits, but for a minus sign. -/
theorem mem_of_mem_signedDecimal {n : Int} {c : Char} (hc : c ∈ signedDecimal n) :
    c ∈ '-' :: (lowerDigits ++ upperDigits) := by
  unfold signedDecimal at hc
  split at hc
  next =>
    rcases List.mem_cons.mp hc with hc | hc
    · exact hc ▸ List.mem_cons_self ..
    · exact List.mem_cons_of_mem _ ((denotes_decimal _).mem hc)
  next => exact List.mem_cons_of_mem _ ((denotes_decimal _).mem hc)

end FixedWidth.Numeral
