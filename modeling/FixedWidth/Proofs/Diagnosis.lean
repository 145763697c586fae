import FixedWidth.EvalError
import FixedWidth.Proofs.Grammar

/-!
# What is wrong with a literal

A text that is no literal has exactly one complaint. Which one is said here without a reader: the
text has no colon, or its first half names no type, or its second half is refused; and a row of
digits is refused at the first place where there is no digit, or where the number that has been
written so far is out of range (`Numeral.FirstStop`).

- `extend_eq_error_iff`: reading digits fails at that place and for what is wrong there, as the
  range is checked at every digit and a number never comes back into a range that it has left;
- `read_eq_error_iff`: the same for a numeral with its sign;
- `ofType_error_iff`: and for the second half of a literal, in either notation.

> `read_error_diagnosed`: reading a text fails with a message exactly if that is the complaint about
> it.
-/

namespace FixedWidth

namespace Numeral

/-! ## The place where digits stop -/

/-- Whether reading digits on from a number cannot go past a place of a text: no digit is there, or
the number that is written up to it is out of range. -/
def StopsAt (radix : Nat) (lower upper sign : Int) (number : Nat) (text : List Char) (k : Nat) :
    Prop :=
  ∃ c, text[k]? = some c ∧
    ((∀ d, ¬ IsDigit radix c d) ∨
      ∃ digits, List.Forall₂ (IsDigit radix) (text.take (k + 1)) digits ∧
        ¬ (lower ≤ sign * digits.foldl (fun n d => n * radix + d) number ∧
          sign * digits.foldl (fun n d => n * radix + d) number ≤ upper))

/-- Whether a place is the first one that reading cannot go past. -/
def FirstStop (radix : Nat) (lower upper sign : Int) (number : Nat) (text : List Char) (k : Nat) :
    Prop :=
  StopsAt radix lower upper sign number text k ∧
    ∀ j < k, ¬ StopsAt radix lower upper sign number text j

/-- What is wrong with a character at which reading stops. A digit has taken the number out of its
range, to the side on which its sign puts it. -/
inductive FaultOf (radix : Nat) (sign : Int) (c : Char) : NumeralError → Prop where
  | invalidDigit (h : ∀ d, ¬ IsDigit radix c d) : FaultOf radix sign c .invalidDigit
  | tooLarge {d : Nat} (hd : IsDigit radix c d) (hsign : sign = 1) : FaultOf radix sign c .tooLarge
  | tooSmall {d : Nat} (hd : IsDigit radix c d) (hsign : sign = -1) :
    FaultOf radix sign c .tooSmall

section

variable {radix : Nat} {lower upper sign : Int} {number k : Nat} {c : Char} {rest : List Char}
  {cause : NumeralError}

theorem IsDigit.unique {d d' : Nat} (h : IsDigit radix c d) (h' : IsDigit radix c d') : d = d' := by
  rw [← digitIn_eq_some_iff] at h h'
  rw [h] at h'
  exact Option.some.inj h'

theorem stopsAt_zero_of_no_digit (h : ∀ d, ¬ IsDigit radix c d) :
    StopsAt radix lower upper sign number (c :: rest) 0 := ⟨c, rfl, .inl h⟩

/-- Reading stops at a digit that takes the number out of range. -/
theorem stopsAt_zero_iff {d : Nat} (hd : IsDigit radix c d) :
    StopsAt radix lower upper sign number (c :: rest) 0 ↔
      ¬ (lower ≤ sign * ((number * radix + d : Nat) : Int) ∧
        sign * ((number * radix + d : Nat) : Int) ≤ upper) := by
  constructor
  · rintro ⟨c', hc, hnone | ⟨digits, hdigits, hrange⟩⟩
    · obtain rfl := Option.some.inj hc
      exact absurd hd (hnone d)
    · cases hdigits with
      | cons hd' hnil =>
        cases hnil
        rw [hd.unique hd']
        exact hrange
  · intro hrange
    exact ⟨c, rfl, .inr ⟨[d], .cons hd .nil, hrange⟩⟩

/-- Past a digit, reading goes on with the number that it makes. -/
theorem stopsAt_succ_iff {d : Nat} (hd : IsDigit radix c d) :
    StopsAt radix lower upper sign number (c :: rest) (k + 1) ↔
      StopsAt radix lower upper sign (number * radix + d) rest k := by
  constructor
  · rintro ⟨c', hc, hnone | ⟨digits, hdigits, hrange⟩⟩
    · exact ⟨c', hc, .inl hnone⟩
    · cases hdigits with
      | cons hd' hdigits =>
        rw [hd.unique hd']
        exact ⟨c', hc, .inr ⟨_, hdigits, hrange⟩⟩
  · rintro ⟨c', hc, hnone | ⟨digits, hdigits, hrange⟩⟩
    · exact ⟨c', hc, .inl hnone⟩
    · exact ⟨c', hc, .inr ⟨d :: digits, .cons hd hdigits, hrange⟩⟩

theorem firstStop_iff_of_stop (h : StopsAt radix lower upper sign number (c :: rest) 0) :
    FirstStop radix lower upper sign number (c :: rest) k ↔ k = 0 := by
  constructor
  · intro hk
    rcases Nat.eq_zero_or_pos k with hzero | hpos
    · exact hzero
    · exact absurd h (hk.2 0 hpos)
  · rintro rfl
    exact ⟨h, fun j hj => absurd hj (Nat.not_lt_zero j)⟩

/-- Past a digit, the first stop is that of the rest, read on from the longer number. -/
theorem firstStop_iff_of_digit {d : Nat} (hd : IsDigit radix c d)
    (h : ¬ StopsAt radix lower upper sign number (c :: rest) 0) :
    FirstStop radix lower upper sign number (c :: rest) k ↔
      ∃ j, k = j + 1 ∧ FirstStop radix lower upper sign (number * radix + d) rest j := by
  constructor
  · rintro ⟨hstop, hfirst⟩
    cases k with
    | zero => exact absurd hstop h
    | succ j =>
      refine ⟨j, rfl, (stopsAt_succ_iff hd).mp hstop, ?_⟩
      intro i hi hstop'
      exact hfirst (i + 1) (Nat.succ_lt_succ hi) ((stopsAt_succ_iff hd).mpr hstop')
  · rintro ⟨j, rfl, hstop, hfirst⟩
    refine ⟨(stopsAt_succ_iff hd).mpr hstop, ?_⟩
    intro i hi hstop'
    cases i with
    | zero => exact h hstop'
    | succ i => exact hfirst i (Nat.lt_of_succ_lt_succ hi) ((stopsAt_succ_iff hd).mp hstop')

theorem faultOf_iff_of_no_digit (h : ∀ d, ¬ IsDigit radix c d) :
    FaultOf radix sign c cause ↔ .invalidDigit = cause := by
  constructor
  · intro hfault
    cases hfault with
    | invalidDigit => rfl
    | tooLarge hd => exact absurd hd (h _)
    | tooSmall hd => exact absurd hd (h _)
  · rintro rfl
    exact .invalidDigit h

/-- The only thing wrong with a digit is the side on which the number leaves its range. -/
theorem faultOf_iff_of_digit {d : Nat} (hd : IsDigit radix c d) (hsign : sign = 1 ∨ sign = -1) :
    FaultOf radix sign c cause ↔ (if sign = 1 then .tooLarge else .tooSmall) = cause := by
  constructor
  · intro hfault
    cases hfault with
    | invalidDigit hnone => exact absurd hd (hnone d)
    | tooLarge _ h => rw [if_pos h]
    | tooSmall _ h => rw [if_neg (by omega)]
  · rintro rfl
    rcases hsign with rfl | rfl
    · exact .tooLarge hd rfl
    · exact .tooSmall hd rfl

/-- One step of reading, by what its first character does. -/
theorem extend_cons_of_digit {d : Nat} (hlower : lower ≤ 0) (hupper : 0 ≤ upper)
    (hsign : sign = 1 ∨ sign = -1) (hd : IsDigit radix c d) :
    extend radix lower upper sign (sign * number) (c :: rest) =
      if lower ≤ sign * ((number * radix + d : Nat) : Int) ∧
          sign * ((number * radix + d : Nat) : Int) ≤ upper then
        extend radix lower upper sign (sign * ((number * radix + d : Nat) : Int)) rest
      else .error (if sign = 1 then .tooLarge else .tooSmall) := by
  rw [extend, digitIn_eq_some_iff.mpr hd]
  simp only [sign_mul_extend]
  generalize number * radix + d = next
  rcases hsign with rfl | rfl
  · by_cases h : 1 * (next : Int) > upper
    · rw [if_pos h, if_neg (by omega), if_pos rfl]
    · rw [if_neg h, if_neg (by omega), if_pos (by omega)]
  · by_cases h : -1 * (next : Int) < lower
    · rw [if_neg (by omega), if_pos h, if_neg (by omega), if_neg (by omega)]
    · rw [if_neg (by omega), if_neg h, if_pos (by omega)]

/-- Reading fails at the first place that it cannot go past, for what is wrong there. -/
theorem extend_eq_error_iff (hlower : lower ≤ 0) (hupper : 0 ≤ upper)
    (hsign : sign = 1 ∨ sign = -1) {text : List Char} :
    extend radix lower upper sign (sign * number) text = .error cause ↔
      ∃ k c, FirstStop radix lower upper sign number text k ∧ text[k]? = some c ∧
        FaultOf radix sign c cause := by
  -- Places count from the front of what is left, and `number` is what has been read by then.
  induction text generalizing number with
  | nil =>
    refine iff_of_false (fun h => by cases h) ?_
    rintro ⟨k, c, -, hc, -⟩
    cases hc
  | cons c rest ih =>
    cases hdigit : digitIn radix c with
    | none =>
      have hnone : ∀ d, ¬ IsDigit radix c d := by
        intro d hd
        rw [digitIn_eq_some_iff.mpr hd] at hdigit
        cases hdigit
      have hstop := @stopsAt_zero_of_no_digit radix lower upper sign number c rest hnone
      rw [extend, hdigit]
      simp [firstStop_iff_of_stop hstop, faultOf_iff_of_no_digit hnone]
    | some d =>
      have hd := digitIn_eq_some_iff.mp hdigit
      rw [extend_cons_of_digit hlower hupper hsign hd]
      -- Either the stop is further on, or the number leaves the range at this very digit.
      by_cases hrange : lower ≤ sign * ((number * radix + d : Nat) : Int) ∧
          sign * ((number * radix + d : Nat) : Int) ≤ upper
      · have hgo : ¬ StopsAt radix lower upper sign number (c :: rest) 0 := by
          rw [stopsAt_zero_iff hd, not_not]
          exact hrange
        rw [if_pos hrange, ih]
        simp only [firstStop_iff_of_digit hd hgo]
        constructor
        · rintro ⟨j, c', hj, hc', hfault⟩
          exact ⟨j + 1, c', ⟨j, rfl, hj⟩, hc', hfault⟩
        · rintro ⟨k, c', ⟨j, rfl, hj⟩, hc', hfault⟩
          exact ⟨j, c', hj, hc', hfault⟩
      · have hstop := (@stopsAt_zero_iff radix lower upper sign number c rest d hd).mpr hrange
        rw [if_neg hrange]
        simp [firstStop_iff_of_stop hstop, faultOf_iff_of_digit hd hsign]

end

/-! ## Signs -/

/-- A text of digits with a sign in front of some of them, or without: what is left when the sign is
taken off, if anything is. -/
inductive Signed (minusAllowed : Bool) : List Char → Int → List Char → Prop where
  | plus {body : List Char} (h : body ≠ []) : Signed minusAllowed ('+' :: body) 1 body
  | minus {body : List Char} (allowed : minusAllowed = true) (h : body ≠ []) :
    Signed minusAllowed ('-' :: body) (-1) body
  | unsigned {text : List Char} (h : text ≠ []) (hplus : text.head? ≠ some '+')
    (hminus : minusAllowed = true → text.head? ≠ some '-') : Signed minusAllowed text 1 text

/-- What is wrong with a text that is no numeral of a range. A minus sign is taken off only where
the range goes below zero. -/
inductive Faulty (radix : Nat) (lower upper : Int) : List Char → NumeralError → Prop where
  | empty : Faulty radix lower upper [] .empty
  | loneSign {c : Char} (h : c = '+' ∨ c = '-') : Faulty radix lower upper [c] .invalidDigit
  | stopped {text body : List Char} {sign : Int} {k : Nat} {c : Char} {cause : NumeralError}
    (hsigned : Signed (decide (lower < 0)) text sign body)
    (hstop : FirstStop radix lower upper sign 0 body k) (hc : body[k]? = some c)
    (hfault : FaultOf radix sign c cause) : Faulty radix lower upper text cause

section

variable {radix : Nat} {lower upper : Int} {cause : NumeralError}

/-- A plus sign is taken off wherever something comes after it. -/
theorem signed_plus_iff {minusAllowed : Bool} {body text : List Char} {sign : Int}
    (h : body ≠ []) : Signed minusAllowed ('+' :: body) sign text ↔ sign = 1 ∧ text = body := by
  constructor
  · intro hsigned
    cases hsigned with
    | plus => exact ⟨rfl, rfl⟩
    | unsigned _ hplus => exact absurd rfl hplus
  · rintro ⟨rfl, rfl⟩
    exact .plus h

/-- A minus sign is taken off where it may stand and something comes after it. -/
theorem signed_minus_iff {minusAllowed : Bool} {body text : List Char} {sign : Int}
    (allowed : minusAllowed = true) (h : body ≠ []) :
    Signed minusAllowed ('-' :: body) sign text ↔ sign = -1 ∧ text = body := by
  constructor
  · intro hsigned
    cases hsigned with
    | minus => exact ⟨rfl, rfl⟩
    | unsigned _ _ hminus => exact absurd rfl (hminus allowed)
  · rintro ⟨rfl, rfl⟩
    exact .minus allowed h

theorem signed_unsigned_iff {minusAllowed : Bool} {body text : List Char} {sign : Int}
    (h : body ≠ []) (hplus : ∀ rest, body ≠ '+' :: rest)
    (hminus : minusAllowed = true → ∀ rest, body ≠ '-' :: rest) :
    Signed minusAllowed body sign text ↔ sign = 1 ∧ text = body := by
  constructor
  · intro hsigned
    cases hsigned with
    | plus => exact absurd rfl (hplus _)
    | minus allowed => exact absurd rfl (hminus allowed _)
    | unsigned => exact ⟨rfl, rfl⟩
  · rintro ⟨rfl, rfl⟩
    refine .unsigned h ?_ ?_
    · intro hhead
      exact hplus _ (List.eq_cons_of_mem_head? hhead)
    · intro allowed hhead
      exact hminus allowed _ (List.eq_cons_of_mem_head? hhead)

/-- A minus sign that is not taken off is no digit. -/
theorem not_isDigit_minus (d : Nat) : ¬ IsDigit radix '-' d := by
  intro hd
  have hvalue := digitValue_eq_some_iff.mpr hd.2
  cases hvalue

/-- With its sign taken off, a text is refused where its digits stop. -/
theorem faulty_iff_extend (hlower : lower ≤ 0) (hupper : 0 ≤ upper) {text body : List Char}
    {sign : Int} (hsign : sign = 1 ∨ sign = -1) (hne : text ≠ [])
    (hlone : ∀ c, text = [c] → c ≠ '+' ∧ c ≠ '-')
    (hsigned : ∀ sign' body', Signed (decide (lower < 0)) text sign' body' ↔
      sign' = sign ∧ body' = body) :
    extend radix lower upper sign 0 body = .error cause ↔ Faulty radix lower upper text cause := by
  have hzero : sign * (0 : Nat) = 0 := by rw [Int.natCast_zero, Int.mul_zero]
  rw [← hzero, extend_eq_error_iff hlower hupper hsign]
  constructor
  · rintro ⟨k, c, hstop, hc, hfault⟩
    exact .stopped ((hsigned sign body).mpr ⟨rfl, rfl⟩) hstop hc hfault
  · intro hfaulty
    cases hfaulty with
    | empty => exact absurd rfl hne
    | loneSign h =>
      obtain ⟨hplus, hminus⟩ := hlone _ rfl
      rcases h with h | h
      · exact absurd h hplus
      · exact absurd h hminus
    | stopped hs hstop hc hfault =>
      obtain ⟨rfl, rfl⟩ := (hsigned _ _).mp hs
      exact ⟨_, _, hstop, hc, hfault⟩

/-- Where no minus sign may stand, it is a character like any other that is no digit. -/
theorem faulty_minus_iff (hlower : ¬ lower < 0) (body : List Char) :
    Faulty radix lower upper ('-' :: body) cause ↔ .invalidDigit = cause := by
  have hnone : ∀ d, ¬ IsDigit radix '-' d := not_isDigit_minus
  have hstop := @stopsAt_zero_of_no_digit radix lower upper 1 0 '-' body hnone
  have hsigned : ∀ sign text, Signed (decide (lower < 0)) ('-' :: body) sign text ↔
      sign = 1 ∧ text = '-' :: body := by
    intro sign text
    refine signed_unsigned_iff (List.cons_ne_nil _ _) (fun rest h => ?_) (fun allowed => ?_)
    · cases h
    · exact absurd (of_decide_eq_true allowed) hlower
  constructor
  · intro hfaulty
    cases hfaulty with
    | loneSign => rfl
    | stopped hs hfirst hc hfault =>
      obtain ⟨rfl, rfl⟩ := (hsigned _ _).mp hs
      obtain rfl := (firstStop_iff_of_stop hstop).mp hfirst
      obtain rfl := Option.some.inj hc
      exact (faultOf_iff_of_no_digit hnone).mp hfault
  · rintro rfl
    exact .stopped ((hsigned _ _).mpr ⟨rfl, rfl⟩) ((firstStop_iff_of_stop hstop).mpr rfl) rfl
      (.invalidDigit hnone)

/-- Nothing is read from a sign alone. -/
theorem faulty_loneSign_iff {c : Char} (h : c = '+' ∨ c = '-') :
    Faulty radix lower upper [c] cause ↔ .invalidDigit = cause := by
  constructor
  · intro hfaulty
    -- Where no number is negative, a minus sign is no sign but a character that is not a digit.
    by_cases hletter : c = '-' ∧ ¬ lower < 0
    · obtain ⟨rfl, hlower⟩ := hletter
      exact (faulty_minus_iff hlower []).mp hfaulty
    · cases hfaulty with
      | loneSign => rfl
      | stopped hs =>
        cases hs with
        | plus hne => exact absurd rfl hne
        | minus _ hne => exact absurd rfl hne
        | unsigned _ hplus hminus =>
          rcases h with rfl | rfl
          · exact absurd rfl hplus
          · exact absurd ⟨rfl, fun hneg => hminus (decide_eq_true hneg) rfl⟩ hletter
  · rintro rfl
    exact .loneSign h

theorem faulty_nil_iff : Faulty radix lower upper [] cause ↔ .empty = cause := by
  constructor
  · intro hfaulty
    cases hfaulty with
    | empty => rfl
    | stopped hs =>
      cases hs with
      | unsigned hne => exact absurd rfl hne
  · rintro rfl
    exact .empty

/-- Reading a numeral fails for what is wrong with it. -/
theorem read_eq_error_iff (hlower : lower ≤ 0) (hupper : 0 ≤ upper) {text : List Char} :
    read radix lower upper text = .error cause ↔ Faulty radix lower upper text cause := by
  unfold read
  split
  next => rw [Except.error.injEq, faulty_nil_iff]
  next => rw [Except.error.injEq, faulty_loneSign_iff (.inl rfl)]
  next => rw [Except.error.injEq, faulty_loneSign_iff (.inr rfl)]
  next digits hne =>
    have hbody : digits ≠ [] := fun h => hne (h ▸ rfl)
    refine faulty_iff_extend hlower hupper (.inl rfl) (List.cons_ne_nil _ _) ?_
      fun _ _ => signed_plus_iff hbody
    intro c hc
    exact absurd (List.cons.inj hc).2 hbody
  next digits hne =>
    have hbody : digits ≠ [] := fun h => hne (h ▸ rfl)
    -- Without negative numbers the minus sign is not taken off, and the digits are not looked at.
    by_cases hneg : lower < 0
    · rw [if_pos hneg]
      refine faulty_iff_extend hlower hupper (.inr rfl) (List.cons_ne_nil _ _) ?_
        fun _ _ => signed_minus_iff (decide_eq_true hneg) hbody
      intro c hc
      exact absurd (List.cons.inj hc).2 hbody
    · rw [if_neg hneg, Except.error.injEq, faulty_minus_iff hneg]
  next hnil hplus0 hminus0 hplus hminus =>
    refine faulty_iff_extend hlower hupper (.inl rfl) hnil ?_
      fun _ _ => signed_unsigned_iff hnil hplus fun _ => hminus
    rintro c rfl
    exact ⟨fun hc => hplus [] (hc ▸ rfl), fun hc => hminus [] (hc ▸ rfl)⟩

end

end Numeral

namespace Literal

/-! ## Literals -/

/-- Whether the first colon of a text stands between two halves, once the blanks around them are
taken off. -/
def Halves (text : String) (name value : List Char) : Prop :=
  ∃ before after, text.toList = before ++ ':' :: after ∧ ':' ∉ before ∧
    Text.IsTrimmed before name ∧ Text.IsTrimmed after value

/-- Why the second half of a literal is no value of a type, in words. -/
inductive Refused (type : IntType) : List Char → String → Prop where
  /-- The digits of a pattern are at fault, as a number of 64 bits. -/
  | pattern {x : Char} {digits : List Char} {cause : NumeralError} (hx : x = 'x' ∨ x = 'X')
    (h : Numeral.Faulty 16 0 (2 ^ 64 - 1) (digits.filter (· ≠ '_')) cause) :
    Refused type ('0' :: x :: digits) cause.message
  /-- A pattern of 64 bits does not fit the type. -/
  | tooWide {x : Char} {digits : List Char} {n : Nat} (hx : x = 'x' ∨ x = 'X')
    (h : Numeral.IsNumeral 16 false (digits.filter (· ≠ '_')) n) (hword : n ≤ 2 ^ 64 - 1)
    (hn : type.mask < n) : Refused type ('0' :: x :: digits) "bit pattern wider than type"
  /-- The digits of an integer are at fault, in the range of the type. -/
  | integer {value : List Char} {cause : NumeralError}
    (hx : ∀ x digits, value = '0' :: x :: digits → x ≠ 'x' ∧ x ≠ 'X')
    (h : Numeral.Faulty 10 type.minValue type.maxValue (value.filter (· ≠ '_')) cause) :
    Refused type value cause.message

/-- What is wrong with a text that is no literal, in words. -/
inductive Complaint (text : String) : String → Prop where
  | noColon (h : ':' ∉ text.toList) : Complaint text ("expected type:value, got " ++ text)
  | unknownType {name value : List Char} (h : Halves text name value)
    (hname : ∀ type : IntType, type.name.toList ≠ name) :
    Complaint text ("unknown type in " ++ String.ofList name ++ ":" ++ String.ofList value)
  | refused {type : IntType} {value : List Char} {reason : String}
    (h : Halves text type.name.toList value) (hvalue : Refused type value reason) :
    Complaint text (type.name ++ ":" ++ String.ofList value ++ ": " ++ reason)

theorem greatestWord_eq : ((Numeral.greatestWord : Nat) : Int) = 2 ^ 64 - 1 := rfl

/-- Behind `0x` a value is refused for its digits, or for a pattern that is wider than the type. -/
theorem refused_pattern_iff {type : IntType} {x : Char} (hx : x = 'x' ∨ x = 'X')
    {digits : List Char} {reason : String} :
    Refused type ('0' :: x :: digits) reason ↔
      (∃ cause, Numeral.Faulty 16 0 (2 ^ 64 - 1) (digits.filter (· ≠ '_')) cause ∧
        reason = cause.message) ∨
      ((∃ n : Nat, Numeral.IsNumeral 16 false (digits.filter (· ≠ '_')) n ∧ n ≤ 2 ^ 64 - 1 ∧
        type.mask < n) ∧ reason = "bit pattern wider than type") := by
  constructor
  · intro hrefused
    cases hrefused with
    | pattern _ h => exact .inl ⟨_, h, rfl⟩
    | tooWide _ h hword hn => exact .inr ⟨⟨_, h, hword, hn⟩, rfl⟩
    | integer hne =>
      obtain ⟨h1, h2⟩ := hne x digits rfl
      exact absurd hx (by simp [h1, h2])
  · rintro (⟨cause, h, rfl⟩ | ⟨⟨n, h, hword, hn⟩, rfl⟩)
    · exact .pattern hx h
    · exact .tooWide hx h hword hn

/-- Without `0x` in front, a value is refused as a decimal of the range of its type. -/
theorem refused_integer_iff {type : IntType} {value : List Char} {reason : String}
    (hx : ∀ x digits, value = '0' :: x :: digits → x ≠ 'x' ∧ x ≠ 'X') :
    Refused type value reason ↔
      ∃ cause, Numeral.Faulty 10 type.minValue type.maxValue (value.filter (· ≠ '_')) cause ∧
        reason = cause.message := by
  constructor
  · intro hrefused
    cases hrefused with
    | pattern hprefix =>
      obtain ⟨h1, h2⟩ := hx _ _ rfl
      exact absurd hprefix (by simp [h1, h2])
    | tooWide hprefix =>
      obtain ⟨h1, h2⟩ := hx _ _ rfl
      exact absurd hprefix (by simp [h1, h2])
    | integer _ h => exact ⟨_, h, rfl⟩
  · rintro ⟨cause, h, rfl⟩
    exact .integer hx h

/-- A pattern is refused by its digits or, when they are read, by its width. -/
theorem ofPattern_error_iff {type : IntType} {value detail : String} {x : Char}
    (hx : x = 'x' ∨ x = 'X') {digits : List Char} :
    (∃ e, ofPattern type value digits = .error e ∧ e.detail = detail) ↔
      ∃ reason, Refused type ('0' :: x :: digits) reason ∧
        detail = type.name ++ ":" ++ value ++ ": " ++ reason := by
  have herror : ∀ cause,
      Numeral.read 16 0 Numeral.greatestWord (withoutUnderscores digits) = .error cause ↔
        Numeral.Faulty 16 0 (2 ^ 64 - 1) (digits.filter (· ≠ '_')) cause := by
    intro cause
    rw [← greatestWord_eq]
    exact Numeral.read_eq_error_iff (Int.le_refl 0) (by decide)
  have hok : ∀ n : Int,
      Numeral.read 16 0 Numeral.greatestWord (withoutUnderscores digits) = .ok n ↔
        Numeral.IsNumeral 16 false (digits.filter (· ≠ '_')) n ∧ 0 ≤ n ∧
          n ≤ Numeral.greatestWord := by
    intro n
    exact Numeral.read_eq_ok_iff (by decide) (Int.le_refl 0) (by decide)
  have hwords : (LiteralError.tooWide type value).detail =
      type.name ++ ":" ++ value ++ ": " ++ "bit pattern wider than type" := by
    have hjoined : ": " ++ "bit pattern wider than type" = ": bit pattern wider than type" := rfl
    rw [String.append_assoc, hjoined]
    rfl
  simp only [refused_pattern_iff hx]
  unfold ofPattern
  constructor
  · rintro ⟨e, he, rfl⟩
    cases hread : Numeral.read 16 0 Numeral.greatestWord (withoutUnderscores digits) with
    | error cause =>
      rw [hread] at he
      obtain rfl := Except.error.inj he
      exact ⟨_, .inl ⟨cause, (herror cause).mp hread, rfl⟩, rfl⟩
    | ok n =>
      rw [hread] at he
      obtain ⟨hnumeral, hnonneg, hword⟩ := (hok n).mp hread
      obtain ⟨k, rfl⟩ := Int.eq_ofNat_of_zero_le hnonneg
      rw [greatestWord_eq] at hword
      -- What is within a word may still be too wide for the type.
      by_cases hwide : (k : Int) > type.mask
      · simp only [if_pos hwide] at he
        obtain rfl := Except.error.inj he
        exact ⟨_, .inr ⟨⟨k, hnumeral, by omega, by omega⟩, rfl⟩, hwords⟩
      · simp only [if_neg hwide] at he
        cases he
  · rintro ⟨reason, ⟨cause, hfaulty, rfl⟩ | ⟨⟨k, hnumeral, hword, hwide⟩, rfl⟩, rfl⟩
    · rw [(herror cause).mpr hfaulty]
      exact ⟨_, rfl, rfl⟩
    · have hread := (hok k).mpr ⟨hnumeral, by omega, by rw [greatestWord_eq]; omega⟩
      rw [hread]
      exact ⟨.tooWide type value, if_pos (by omega), hwords⟩

/-- Reading a decimal fails with the words by which the decimal is refused. -/
theorem ofDecimal_error_iff {type : IntType} {detail : String} {value : List Char}
    (hx : ∀ x digits, value = '0' :: x :: digits → x ≠ 'x' ∧ x ≠ 'X') :
    (∃ e, ofDecimal type (String.ofList value) value = .error e ∧ e.detail = detail) ↔
      ∃ reason, Refused type value reason ∧
        detail = type.name ++ ":" ++ String.ofList value ++ ": " ++ reason := by
  have herror : ∀ cause,
      Numeral.read 10 type.minValue type.maxValue (withoutUnderscores value) = .error cause ↔
        Numeral.Faulty 10 type.minValue type.maxValue (value.filter (· ≠ '_')) cause := by
    intro cause
    exact Numeral.read_eq_error_iff type.minValue_nonpos type.maxValue_nonneg
  simp only [refused_integer_iff hx, ← herror]
  unfold ofDecimal
  constructor
  · rintro ⟨e, he, rfl⟩
    cases hread : Numeral.read 10 type.minValue type.maxValue (withoutUnderscores value) with
    | error cause =>
      rw [hread] at he
      obtain rfl := Except.error.inj he
      exact ⟨_, ⟨cause, rfl, rfl⟩, rfl⟩
    | ok n =>
      rw [hread] at he
      cases he
  · rintro ⟨reason, ⟨cause, hread, rfl⟩, rfl⟩
    rw [hread]
    exact ⟨_, rfl, rfl⟩

/-- The second half of a literal is refused as it should be, in either notation. -/
theorem ofType_error_iff {type : IntType} {value : List Char} {detail : String} :
    (∃ e, ofType type (String.ofList value) = .error e ∧ e.detail = detail) ↔
      ∃ reason, Refused type value reason ∧
        detail = type.name ++ ":" ++ String.ofList value ++ ": " ++ reason := by
  unfold ofType
  rw [String.toList_ofList]
  split
  next digits => exact ofPattern_error_iff (.inl rfl)
  next digits => exact ofPattern_error_iff (.inr rfl)
  next hlower hupper =>
    refine ofDecimal_error_iff ?_
    intro x digits hvalue
    exact ⟨fun hx => hlower digits (hx ▸ hvalue), fun hx => hupper digits (hx ▸ hvalue)⟩

/-- The first colon and the blanks leave no choice of the halves. -/
theorem Halves.unique {text : String} {name value name' value' : List Char}
    (h : Halves text name value) (h' : Halves text name' value') :
    name = name' ∧ value = value' := by
  obtain ⟨before, after, htext, hcolon, hname, hvalue⟩ := h
  obtain ⟨before', after', htext', hcolon', hname', hvalue'⟩ := h'
  have hsplit := splitAtColon_append hcolon after
  rw [← htext, htext', splitAtColon_append hcolon'] at hsplit
  obtain ⟨rfl, rfl⟩ := Prod.mk.inj (Option.some.inj hsplit)
  exact ⟨(Text.trim_of_isTrimmed hname).symm.trans (Text.trim_of_isTrimmed hname'),
    (Text.trim_of_isTrimmed hvalue).symm.trans (Text.trim_of_isTrimmed hvalue')⟩

/-- A text with a colon is read by its trimmed halves. -/
theorem read_of_halves {text : String} {name value : List Char} (h : Halves text name value) :
    read text = ofHalves (String.ofList name) (String.ofList value) := by
  obtain ⟨before, after, htext, hcolon, hname, hvalue⟩ := h
  unfold read
  rw [htext, splitAtColon_append hcolon]
  show ofHalves (String.ofList (Text.trim before)) (String.ofList (Text.trim after)) = _
  rw [Text.trim_of_isTrimmed hname, Text.trim_of_isTrimmed hvalue]

theorem not_mem_of_splitAtColon {text : List Char} (h : splitAtColon text = none) :
    ':' ∉ text := by
  induction text with
  | nil => exact List.not_mem_nil
  | cons c rest ih =>
    rw [splitAtColon] at h
    split at h
    next => cases h
    next hc =>
      rw [List.mem_cons, not_or]
      exact ⟨Ne.symm hc, ih (Option.map_eq_none_iff.mp h)⟩

/-- A text has no colon, or it has two halves. -/
theorem halves_cases (text : String) :
    (':' ∉ text.toList ∧ read text = .error (.noColon text)) ∨
      ∃ name value, Halves text name value := by
  cases hsplit : splitAtColon text.toList with
  | none =>
    refine .inl ⟨not_mem_of_splitAtColon hsplit, ?_⟩
    unfold read
    rw [hsplit]
  | some halves =>
    obtain ⟨before, after⟩ := halves
    obtain ⟨htext, hcolon⟩ := eq_of_splitAtColon hsplit
    exact .inr ⟨_, _, before, after, htext, hcolon, Text.isTrimmed_trim before,
      Text.isTrimmed_trim after⟩

theorem Halves.mem_colon {text : String} {name value : List Char} (h : Halves text name value) :
    ':' ∈ text.toList := by
  obtain ⟨before, after, htext, -⟩ := h
  rw [htext]
  exact List.mem_append_right before List.mem_cons_self

/-- Of a text without a colon nothing else is said. -/
theorem complaint_noColon_iff {text detail : String} (h : ':' ∉ text.toList) :
    Complaint text detail ↔ "expected type:value, got " ++ text = detail := by
  constructor
  · intro hcomplaint
    cases hcomplaint with
    | noColon => rfl
    | unknownType hhalves => exact absurd hhalves.mem_colon h
    | refused hhalves => exact absurd hhalves.mem_colon h
  · rintro rfl
    exact .noColon h

/-- Of a text that names no type nothing else is said, whatever stands behind the colon. -/
theorem complaint_unknownType_iff {text detail : String} {name value : List Char}
    (h : Halves text name value) (hname : ∀ type : IntType, type.name.toList ≠ name) :
    Complaint text detail ↔
      "unknown type in " ++ String.ofList name ++ ":" ++ String.ofList value = detail := by
  constructor
  · intro hcomplaint
    cases hcomplaint with
    | noColon hcolon => exact absurd h.mem_colon hcolon
    | unknownType h' =>
      obtain ⟨rfl, rfl⟩ := h.unique h'
      rfl
    | refused h' => exact absurd (h.unique h').1.symm (hname _)
  · rintro rfl
    exact .unknownType h hname

/-- Of a text that names a type it is said why its value is refused. -/
theorem complaint_refused_iff {text detail : String} {type : IntType} {value : List Char}
    (h : Halves text type.name.toList value) :
    Complaint text detail ↔ ∃ reason, Refused type value reason ∧
      detail = type.name ++ ":" ++ String.ofList value ++ ": " ++ reason := by
  constructor
  · intro hcomplaint
    cases hcomplaint with
    | noColon hcolon => exact absurd h.mem_colon hcolon
    | unknownType h' hname => exact absurd (h.unique h').1 (hname type)
    | refused h' hvalue =>
      obtain ⟨hname, rfl⟩ := h.unique h'
      obtain rfl := IntType.name_injective (String.toList_inj.mp hname)
      exact ⟨_, hvalue, rfl⟩
  · rintro ⟨reason, hvalue, rfl⟩
    exact .refused h hvalue

/-- Reading fails with what is the complaint about the text. -/
theorem read_error_iff (text detail : String) :
    (∃ e, read text = .error e ∧ e.detail = detail) ↔ Complaint text detail := by
  -- In the order in which a text is read: its colon, its name, its number.
  rcases halves_cases text with ⟨hcolon, hread⟩ | ⟨name, value, hhalves⟩
  · rw [complaint_noColon_iff hcolon, hread]
    constructor
    · rintro ⟨e, he, rfl⟩
      obtain rfl := Except.error.inj he
      rfl
    · rintro rfl
      exact ⟨_, rfl, rfl⟩
  · rw [read_of_halves hhalves]
    unfold ofHalves
    cases htype : IntType.ofName? (String.ofList name) with
    | none =>
      have hname : ∀ type : IntType, type.name.toList ≠ name := by
        rintro type rfl
        rw [String.ofList_toList, IntType.ofName?_name] at htype
        cases htype
      rw [complaint_unknownType_iff hhalves hname]
      constructor
      · rintro ⟨e, he, rfl⟩
        obtain rfl := Except.error.inj he
        rfl
      · rintro rfl
        exact ⟨_, rfl, rfl⟩
    | some type =>
      obtain rfl : type.name.toList = name := by
        rw [IntType.name_of_ofName? htype, String.toList_ofList]
      rw [complaint_refused_iff hhalves]
      exact ofType_error_iff

/-- **Reading a text fails exactly if there is a complaint about it, and with the message that says
so.** A complaint is settled in one order: no colon, a first half that names no type, a second half
that is refused; and the digits of the second half are refused for what is wrong at the first place
where there is no digit or where the number written so far is out of range. -/
theorem read_error_diagnosed (text : String) :
    (∀ detail, (∃ e, read text = .error e ∧ e.detail = detail ∧
        (EvalError.invalidLiteral e).message = "Invalid literal: " ++ detail) ↔
      Complaint text detail) ∧
    NumeralError.empty.message = "cannot parse integer from empty string" ∧
    NumeralError.invalidDigit.message = "invalid digit found in string" ∧
    NumeralError.tooLarge.message = "number too large to fit in target type" ∧
    NumeralError.tooSmall.message = "number too small to fit in target type" := by
  refine ⟨?_, rfl, rfl, rfl, rfl⟩
  intro detail
  rw [← read_error_iff]
  constructor
  · rintro ⟨e, he, hdetail, -⟩
    exact ⟨e, he, hdetail⟩
  · rintro ⟨e, he, rfl⟩
    exact ⟨e, he, rfl, rfl⟩

end Literal

end FixedWidth
