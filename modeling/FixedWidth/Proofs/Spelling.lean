import FixedWidth.Proofs.Cutting

/-!
# Every spelling of a token is read

A list of tokens has many texts: blanks may stand around each of them, a character inside quotes may
be written by itself or by one of several escapes, and a number with more or fewer parts. `Spells`
says which texts these are. It is a grammar with one constructor for each alternative and no reader
in it.

Inside quotes the state of the lexer is what has been read of the text, and the lemmas say what each
spelling adds to it (`feed_spellsChar`). Half of a surrogate pair that stands alone takes the
content away, at once or at the next character, and nothing brings it back (`feed_spellsText`). A
numeral has no last character of its own, so what comes after it has to be none of its parts
(`Follows`).

> `tokens_of_spells`: the lexer takes a spelled list of tokens for that list.

In the other direction `spells_print` says that a printed list is one of its spellings.
-/

namespace FixedWidth.Json

/-! ## The characters of a text -/

/-- The letters of the short escapes, each before the character that it stands for. -/
def shortEscapes : List (Char × Char) :=
  [('"', '"'), ('\\', '\\'), ('/', '/'), ('b', '\x08'), ('f', '\x0c'), ('n', '\n'), ('r', '\r'),
    ('t', '\t')]

/-- Whether characters write a unit of UTF-16 by its number. -/
inductive SpellsUnit : Nat → List Char → Prop where
  | numbered {a b c d : Char} {i j k l : Nat} (ha : Numeral.IsDigit 16 a i)
    (hb : Numeral.IsDigit 16 b j) (hc : Numeral.IsDigit 16 c k) (hd : Numeral.IsDigit 16 d l) :
    SpellsUnit (((i * 16 + j) * 16 + k) * 16 + l) ['\\', 'u', a, b, c, d]

/-- Whether a unit of UTF-16 is the first half of a surrogate pair. -/
def IsLead (unit : Nat) : Prop := 0xd800 ≤ unit ∧ unit < 0xdc00

/-- Whether a unit of UTF-16 is the second half of a surrogate pair. -/
def IsTrail (unit : Nat) : Prop := 0xdc00 ≤ unit ∧ unit < 0xe000

/-- Whether characters inside quotes write one character. -/
inductive SpellsChar (c : Char) : List Char → Prop where
  /-- The character itself, unless it ends the text, opens an escape or is a control. -/
  | itself (hquote : c ≠ '"') (hslash : c ≠ '\\') (hcontrol : ¬ c < ' ') : SpellsChar c [c]
  | short {letter : Char} (h : (letter, c) ∈ shortEscapes) : SpellsChar c ['\\', letter]
  | unit {written : List Char} (h : SpellsUnit c.toNat written) : SpellsChar c written
  /-- A character beyond those that one unit can number. -/
  | pair {lead trail : Nat} {front back : List Char} (hlead : IsLead lead) (htrail : IsTrail trail)
    (hc : c.toNat = 0x10000 + (lead - 0xd800) * 0x400 + (trail - 0xdc00))
    (hfront : SpellsUnit lead front) (hback : SpellsUnit trail back) : SpellsChar c (front ++ back)

/-- Whether characters begin with the second half of a surrogate pair. -/
def BeginsWithTrail (written : List Char) : Prop :=
  ∃ trail front back, written = front ++ back ∧ SpellsUnit trail front ∧ IsTrail trail

/-- Whether characters are the inside of a text, and of which one; `none` if half of a surrogate
pair stands alone in it. -/
inductive SpellsText : Option (List Char) → List Char → Prop where
  | nil : SpellsText (some []) []
  | char {c : Char} {content : Option (List Char)} {written rest : List Char}
    (h : SpellsChar c written) (hrest : SpellsText content rest) :
    SpellsText (content.map (c :: ·)) (written ++ rest)
  | half {unit : Nat} {content : Option (List Char)} {written rest : List Char}
    (h : SpellsUnit unit written) (hunit : IsTrail unit ∨ IsLead unit ∧ ¬ BeginsWithTrail rest)
    (hrest : SpellsText content rest) : SpellsText none (written ++ rest)

/-! ## Numbers -/

/-- Whether characters write a row of decimal digits. -/
def SpellsDigits (digits : List Nat) (written : List Char) : Prop :=
  List.Forall₂ (Numeral.IsDigit 10) written digits

/-- Whether characters write the part of a number before the point. -/
inductive SpellsInteger : List Nat → List Char → Prop where
  | zero : SpellsInteger [0] ['0']
  | positive {c : Char} {d : Nat} {digits : List Nat} {rest : List Char}
    (h : Numeral.IsDigit 10 c d) (hd : d ≠ 0) (hrest : SpellsDigits digits rest) :
    SpellsInteger (d :: digits) (c :: rest)

/-- Whether characters write the part of a number behind the point. -/
inductive SpellsFraction : List Nat → List Char → Prop where
  | absent : SpellsFraction [] []
  | present {digits : List Nat} {written : List Char} (hne : digits ≠ [])
    (h : SpellsDigits digits written) : SpellsFraction digits ('.' :: written)

/-- Whether characters are the sign of an exponent. -/
inductive SpellsSign : (negative : Bool) → List Char → Prop where
  | absent : SpellsSign false []
  | plus : SpellsSign false ['+']
  | minus : SpellsSign true ['-']

/-- Whether characters write the exponent of a number. -/
inductive SpellsExponent : (negative : Bool) → List Nat → List Char → Prop where
  | absent : SpellsExponent false [] []
  | present {negative : Bool} {digits : List Nat} {mark : Char} {sign written : List Char}
    (hmark : mark = 'e' ∨ mark = 'E') (hsign : SpellsSign negative sign) (hne : digits ≠ [])
    (h : SpellsDigits digits written) :
    SpellsExponent negative digits (mark :: (sign ++ written))

/-- Whether characters write a number of certain parts. -/
inductive SpellsNumber (parts : Number.Parts) : List Char → Prop where
  | intro {integer fraction exponent : List Char} (hinteger : SpellsInteger parts.integer integer)
    (hfraction : SpellsFraction parts.fraction fraction)
    (hexponent : SpellsExponent parts.exponentNegative parts.exponent exponent) :
    SpellsNumber parts
      ((if parts.negative then ['-'] else []) ++ (integer ++ (fraction ++ exponent)))

/-- Whether characters may stand behind a number that is over. -/
def Follows (rest : List Char) : Prop :=
  ∀ c more, rest = c :: more →
    (∀ d, ¬ Numeral.IsDigit 10 c d) ∧ c ≠ '.' ∧ c ≠ 'e' ∧ c ≠ 'E'

/-! ## Tokens -/

/-- The tokens that are written in one way only. -/
def fixedTokens : List Token :=
  [.openSquare, .closeSquare, .openCurly, .closeCurly, .comma, .colon, .null, .bool true,
    .bool false]

/-- Whether characters write a token. -/
inductive SpellsToken : Token → List Char → Prop where
  | fixed {token : Token} (h : token ∈ fixedTokens) : SpellsToken token token.written
  | text {content : Option (List Char)} {inside : List Char} (h : SpellsText content inside) :
    SpellsToken (.text (content.map String.ofList)) ('"' :: (inside ++ ['"']))
  | number {parts : Number.Parts} {written : List Char} (h : SpellsNumber parts written) :
    SpellsToken (.number (Number.ofParts parts)) written

/-- Whether a text consists of certain tokens and of blanks around them. -/
inductive Spells : List Token → List Char → Prop where
  | nil {blanks : List Char} (h : ∀ c ∈ blanks, Lexer.isBlank c = true) : Spells [] blanks
  | cons {token : Token} {tokens : List Token} {blanks written rest : List Char}
    (hblanks : ∀ c ∈ blanks, Lexer.isBlank c = true) (h : SpellsToken token written)
    (hend : (∃ value, token = .number value) → Follows rest) (hrest : Spells tokens rest) :
    Spells (token :: tokens) (blanks ++ (written ++ rest))

namespace Lexer

/-! ## Lexing the inside of a text -/

/-- An escape by number adds its unit to the text. -/
theorem feed_spellsUnit {unit : Nat} {written : List Char} (h : SpellsUnit unit written)
    (soFar : TextSoFar) :
    feed (.text .plain soFar) written = ([], .text .plain (soFar.pushUnit unit)) := by
  cases h with
  | numbered ha hb hc hd => exact feed_fourDigits soFar ha hb hc hd

theorem not_isTrail_of_isLead {unit : Nat} (h : IsLead unit) : ¬ IsTrail unit := by
  intro htrail
  have hlow := htrail.1
  have hhigh := h.2
  omega

/-- No character has the number of half a pair. -/
theorem not_half_toNat (c : Char) : ¬ IsLead c.toNat ∧ ¬ IsTrail c.toNat := by
  have hvalid : c.toNat < 0xd800 ∨ 0xdfff < c.toNat ∧ c.toNat < 0x110000 := c.valid
  unfold IsLead IsTrail
  omega

/-- A first half waits for the second. -/
theorem pushUnit_of_isLead {unit : Nat} (h : IsLead unit) (content : Option (List Char)) :
    TextSoFar.pushUnit ⟨content, none⟩ unit = ⟨content, some unit⟩ := by
  simp [TextSoFar.pushUnit, h.1, h.2]

/-- A second half without a first one costs the text its content. -/
theorem pushUnit_of_isTrail {unit : Nat} (h : IsTrail unit) (content : Option (List Char)) :
    TextSoFar.pushUnit ⟨content, none⟩ unit = ⟨none, none⟩ := by
  have hlead : ¬ unit < 0xdc00 := Nat.not_lt.mpr h.1
  simp [TextSoFar.pushUnit, h.1, h.2, hlead]

/-- The number of a character below the pairs adds the character. -/
theorem pushUnit_toNat (c : Char) (content : Option (List Char)) :
    TextSoFar.pushUnit ⟨content, none⟩ c.toNat = TextSoFar.push ⟨content, none⟩ c := by
  obtain ⟨hlead, htrail⟩ := not_half_toNat c
  unfold IsLead at hlead
  unfold IsTrail at htrail
  simp [TextSoFar.pushUnit, hlead, htrail]

/-- The second half of a pair completes the character. -/
theorem pushUnit_pair {lead trail : Nat} {c : Char} (htrail : IsTrail trail)
    (hc : c.toNat = 0x10000 + (lead - 0xd800) * 0x400 + (trail - 0xdc00))
    (content : Option (List Char)) :
    TextSoFar.pushUnit ⟨content, some lead⟩ trail = ⟨content.map (c :: ·), none⟩ := by
  simp [TextSoFar.pushUnit, htrail.1, htrail.2, ← hc]

/-- The first half of a pair that is followed by anything else takes the content away. -/
theorem pushUnit_of_not_isTrail {unit : Nat} (h : ¬ IsTrail unit) (content : Option (List Char))
    (lead : Nat) : TextSoFar.pushUnit ⟨content, some lead⟩ unit = ⟨none, none⟩ := by
  unfold IsTrail at h
  simp [TextSoFar.pushUnit, h]

theorem pushUnit_lost (waiting : Option Nat) (unit : Nat) :
    ∃ waiting', TextSoFar.pushUnit ⟨none, waiting⟩ unit = ⟨none, waiting'⟩ := by
  have hlost : (TextSoFar.pushUnit ⟨none, waiting⟩ unit).content = none := by
    rw [← Option.not_isSome_iff_eq_none]
    intro hsome
    cases content_of_pushUnit hsome
  exact ⟨_, congrArg (TextSoFar.mk · _) hlost⟩

/-- A character that needs no escape may stand for itself. -/
theorem feed_itself {c : Char} (hquote : c ≠ '"') (hslash : c ≠ '\\') (hcontrol : ¬ c < ' ')
    (soFar : TextSoFar) :
    feed (.text .plain soFar) [c] = ([], .text .plain (soFar.push c)) := by
  have hstep : step (.text .plain soFar) c = ([], .text .plain (soFar.push c)) := by
    show textStep .plain _ c = _
    unfold textStep
    rw [if_neg hquote, if_neg hslash, if_neg hcontrol]
  rw [feed, hstep]
  rfl

theorem feed_short {letter c : Char} (h : (letter, c) ∈ shortEscapes) (soFar : TextSoFar) :
    feed (.text .plain soFar) ['\\', letter] = ([], .text .plain (soFar.push c)) := by
  simp only [shortEscapes, List.mem_cons, Prod.mk.injEq, List.not_mem_nil, or_false] at h
  rcases h with ⟨rfl, rfl⟩ | ⟨rfl, rfl⟩ | ⟨rfl, rfl⟩ | ⟨rfl, rfl⟩ | ⟨rfl, rfl⟩ | ⟨rfl, rfl⟩ |
    ⟨rfl, rfl⟩ | ⟨rfl, rfl⟩
  all_goals rfl

/-- However a character is spelled, it is added to a text that waits for nothing. -/
theorem feed_spellsChar {c : Char} {written : List Char} (h : SpellsChar c written)
    (content : Option (List Char)) :
    feed (.text .plain ⟨content, none⟩) written =
      ([], .text .plain ⟨content.map (c :: ·), none⟩) := by
  cases h with
  | itself hquote hslash hcontrol => exact feed_itself hquote hslash hcontrol _
  | short h => exact feed_short h _
  | unit h =>
    rw [feed_spellsUnit h, pushUnit_toNat]
    rfl
  | pair hlead htrail hc hfront hback =>
    rw [feed_append_of_eq (feed_spellsUnit hfront _), pushUnit_of_isLead hlead,
      feed_spellsUnit hback, pushUnit_pair htrail hc]
    rfl

/-- A character of its own takes the content away from a text that waits for a second half. -/
theorem feed_spellsChar_waiting {c : Char} {written : List Char} (h : SpellsChar c written)
    (content : Option (List Char)) (lead : Nat) :
    feed (.text .plain ⟨content, some lead⟩) written = ([], .text .plain ⟨none, none⟩) := by
  cases h with
  | itself hquote hslash hcontrol => exact feed_itself hquote hslash hcontrol _
  | short h => exact feed_short h _
  | unit h => rw [feed_spellsUnit h, pushUnit_of_not_isTrail (not_half_toNat c).2]
  | pair hlead htrail hc hfront hback =>
    rw [feed_append_of_eq (feed_spellsUnit hfront _),
      pushUnit_of_not_isTrail (not_isTrail_of_isLead hlead), feed_spellsUnit hback,
      pushUnit_of_isTrail htrail]
    rfl

theorem token_of_lost (waiting : Option Nat) :
    TextSoFar.token ⟨none, waiting⟩ = .text none := by
  cases waiting with
  | none => rfl
  | some lead => rfl

/-- A text that has lost its content may still wait for second halves, but in vain. -/
theorem feed_spellsText_lost {content : Option (List Char)} {inside : List Char}
    (h : SpellsText content inside) (waiting : Option Nat) :
    ∃ waiting', feed (.text .plain ⟨none, waiting⟩) inside =
      ([], .text .plain ⟨none, waiting'⟩) := by
  induction h generalizing waiting with
  | nil => exact ⟨waiting, rfl⟩
  | @char c content written rest hc _ ih =>
    -- The character ends the wait, so the rest is read with nothing waiting.
    have hfirst : feed (.text .plain ⟨none, waiting⟩) written =
        ([], .text .plain ⟨none, none⟩) := by
      cases waiting with
      | none => exact feed_spellsChar hc none
      | some lead => exact feed_spellsChar_waiting hc none lead
    obtain ⟨waiting', hrest⟩ := ih none
    refine ⟨waiting', ?_⟩
    rw [feed_append_of_eq hfirst, hrest]
    rfl
  | @half unit content written rest hunit _ _ ih =>
    obtain ⟨next, hnext⟩ := pushUnit_lost waiting unit
    obtain ⟨waiting', hrest⟩ := ih next
    refine ⟨waiting', ?_⟩
    rw [feed_append_of_eq (feed_spellsUnit hunit _), hnext, hrest]
    rfl

/-- The first half of a pair that waits for a second half, and does not find it at once. -/
theorem feed_spellsText_waiting {content : Option (List Char)} {inside : List Char}
    (h : SpellsText content inside) (htrail : ¬ BeginsWithTrail inside)
    (before : Option (List Char)) (lead : Nat) :
    ∃ soFar, feed (.text .plain ⟨before, some lead⟩) inside = ([], .text .plain soFar) ∧
      soFar.token = .text none := by
  cases h with
  | nil => exact ⟨_, rfl, rfl⟩
  | char hc hrest =>
    obtain ⟨waiting, hlost⟩ := feed_spellsText_lost hrest none
    refine ⟨_, ?_, token_of_lost waiting⟩
    rw [feed_append_of_eq (feed_spellsChar_waiting hc before lead), hlost]
    rfl
  | @half unit _ written rest hunit _ hrest =>
    have hnot : ¬ IsTrail unit := fun hu => htrail ⟨unit, written, rest, rfl, hunit, hu⟩
    obtain ⟨waiting, hlost⟩ := feed_spellsText_lost hrest none
    refine ⟨_, ?_, token_of_lost waiting⟩
    rw [feed_append_of_eq (feed_spellsUnit hunit _), pushUnit_of_not_isTrail hnot, hlost]
    rfl

/-- What has been read of a text when its inside is over. -/
theorem feed_spellsText {content : Option (List Char)} {inside : List Char}
    (h : SpellsText content inside) (before : List Char) :
    ∃ soFar, feed (inText before) inside = ([], .text .plain soFar) ∧
      soFar.token = .text (content.map fun cs => String.ofList (before.reverse ++ cs)) := by
  induction h generalizing before with
  | nil =>
    refine ⟨⟨some before, none⟩, rfl, ?_⟩
    rw [Option.map_some, List.append_nil]
    rfl
  | @char c content written rest hc _ ih =>
    obtain ⟨soFar, hrest, htoken⟩ := ih (c :: before)
    refine ⟨soFar, ?_, ?_⟩
    · have hfirst : feed (inText before) written = ([], inText (c :: before)) :=
        feed_spellsChar hc (some before)
      rw [feed_append_of_eq hfirst, hrest]
      rfl
    · simp only [htoken, Option.map_map, List.reverse_cons, List.append_assoc,
        List.singleton_append]
      rfl
  | @half unit content written rest hunit hhalf hrest _ =>
    have hfirst : feed (inText before) written = _ := feed_spellsUnit hunit _
    rw [feed_append_of_eq hfirst]
    -- A second half without a first one is lost at once, a first half by what comes next.
    rcases hhalf with htrail | ⟨hlead, hnext⟩
    · obtain ⟨waiting, hlost⟩ := feed_spellsText_lost hrest none
      rw [pushUnit_of_isTrail htrail, hlost]
      exact ⟨_, rfl, token_of_lost waiting⟩
    · obtain ⟨soFar, hwaiting, htoken⟩ := feed_spellsText_waiting hrest hnext (some before) unit
      rw [pushUnit_of_isLead hlead, hwaiting]
      exact ⟨soFar, rfl, htoken⟩

/-- A text between its quotes is the token of its content. -/
theorem feed_text_token {content : Option (List Char)} {inside : List Char}
    (h : SpellsText content inside) :
    feed .between ('"' :: (inside ++ ['"'])) = ([.text (content.map String.ofList)], .between) := by
  obtain ⟨soFar, hinside, htoken⟩ := feed_spellsText h []
  have hopen : feed .between ['"'] = ([], inText []) := rfl
  have hclose : feed (.text .plain soFar) ['"'] = ([soFar.token], .between) := rfl
  rw [← List.singleton_append, feed_append_of_eq hopen, feed_append_of_eq hinside, hclose, htoken]
  rfl

/-! ## Lexing a number -/

theorem decimalDigit_eq_some_iff {c : Char} {d : Nat} :
    decimalDigit c = some d ↔ Numeral.IsDigit 10 c d := Numeral.digitIn_eq_some_iff

/-- A row of digits in a phase that takes each of them in the same way. What becomes of the parts is
said by `put`, for the digits so far, last one first. -/
theorem feed_digits {phase : NumeralPhase} {put : List Nat → Number.Parts}
    (hput : ∀ {c d} soFar, Numeral.IsDigit 10 c d →
      numeralStep phase (put soFar) c = some (phase, put (d :: soFar)))
    {digits : List Nat} {written : List Char} (h : SpellsDigits digits written)
    (soFar : List Nat) :
    feed (.numeral phase (put soFar)) written =
      ([], .numeral phase (put (digits.reverse ++ soFar))) := by
  induction h generalizing soFar with
  | nil => rfl
  | cons hd _ ih =>
    rw [feed, step, hput soFar hd]
    simp only [ih, List.reverse_cons, List.append_assoc, List.nil_append, List.singleton_append]

/-- The same where the first digit is taken in another phase. -/
theorem feed_digits_after {start phase : NumeralPhase} {put : List Nat → Number.Parts}
    (hstart : ∀ {c d}, Numeral.IsDigit 10 c d →
      numeralStep start (put []) c = some (phase, put [d]))
    (hput : ∀ {c d} soFar, Numeral.IsDigit 10 c d →
      numeralStep phase (put soFar) c = some (phase, put (d :: soFar)))
    {digits : List Nat} {written : List Char} (hne : digits ≠ [])
    (h : SpellsDigits digits written) :
    feed (.numeral start (put [])) written = ([], .numeral phase (put digits.reverse)) := by
  cases h with
  | nil => exact absurd rfl hne
  | cons hd hrest =>
    rw [feed, step, hstart hd]
    simp only [feed_digits hput hrest, List.reverse_cons, List.nil_append]

section

variable {negative exponentNegative : Bool} {integer fraction digits : List Nat}
  {phase : NumeralPhase} {written : List Char}

/-- The part before the point is collected last digit first, and may be the end. -/
theorem feed_integer (h : SpellsInteger digits written) :
    ∃ phase, (phase = .zero ∨ phase = .integer) ∧
      feed (.numeral .sign ⟨negative, [], [], false, []⟩) written =
        ([], .numeral phase ⟨negative, digits.reverse, [], false, []⟩) := by
  cases h with
  | zero => exact ⟨.zero, .inl rfl, rfl⟩
  | @positive c d digits rest hc hd hrest =>
    have hfirst : numeralStep .sign ⟨negative, [], [], false, []⟩ c =
        some (.integer, ⟨negative, [d], [], false, []⟩) := by
      simp only [numeralStep, decimalDigit_eq_some_iff.mpr hc, if_neg hd]
    have hmore := @feed_digits .integer (fun soFar => ⟨negative, soFar, [], false, []⟩)
      (fun soFar h => by simp only [numeralStep, decimalDigit_eq_some_iff.mpr h])
      digits rest hrest [d]
    refine ⟨.integer, .inr rfl, ?_⟩
    rw [feed, step, hfirst]
    simp only [hmore, List.reverse_cons, List.nil_append]

/-- The part behind the point, if there is one, may be the end, too. -/
theorem feed_fraction (hphase : phase = .zero ∨ phase = .integer)
    (h : SpellsFraction digits written) :
    ∃ phase', (phase' = .zero ∨ phase' = .integer ∨ phase' = .fraction) ∧
      feed (.numeral phase ⟨negative, integer, [], false, []⟩) written =
        ([], .numeral phase' ⟨negative, integer, digits.reverse, false, []⟩) := by
  cases h with
  | absent =>
    refine ⟨phase, ?_, rfl⟩
    exact hphase.imp_right Or.inl
  | @present digits rest hne hrest =>
    have hpoint : numeralStep phase ⟨negative, integer, [], false, []⟩ '.' =
        some (.point, ⟨negative, integer, [], false, []⟩) := by
      rcases hphase with rfl | rfl
      · rfl
      · rfl
    have hmore := @feed_digits_after .point .fraction
      (fun soFar => ⟨negative, integer, soFar, false, []⟩)
      (fun h => by simp only [numeralStep, decimalDigit_eq_some_iff.mpr h])
      (fun soFar h => by simp only [numeralStep, decimalDigit_eq_some_iff.mpr h])
      digits rest hne hrest
    refine ⟨.fraction, .inr (.inr rfl), ?_⟩
    rw [feed, step, hpoint]
    simp only [hmore, List.nil_append]

theorem feed_exponent
    (hphase : phase = .zero ∨ phase = .integer ∨ phase = .fraction)
    (h : SpellsExponent exponentNegative digits written) :
    ∃ phase', phase'.complete = true ∧
      feed (.numeral phase ⟨negative, integer, fraction, false, []⟩) written =
        ([], .numeral phase' ⟨negative, integer, fraction, exponentNegative, digits.reverse⟩) := by
  cases h with
  | absent =>
    refine ⟨phase, ?_, rfl⟩
    rcases hphase with rfl | rfl | rfl
    all_goals rfl
  | @present negativeExponent digits mark sign rest hmark hsign hne hrest =>
    have hopen : numeralStep phase ⟨negative, integer, fraction, false, []⟩ mark =
        some (.exponentMark, ⟨negative, integer, fraction, false, []⟩) := by
      rcases hphase with rfl | rfl | rfl <;> rcases hmark with rfl | rfl
      all_goals rfl
    -- The digits are the same behind a sign and right behind the mark.
    have hmore : ∀ start, start = .exponentMark ∨ start = .exponentSign →
        feed (.numeral start ⟨negative, integer, fraction, exponentNegative, []⟩) rest =
          ([], .numeral .exponent
            ⟨negative, integer, fraction, exponentNegative, digits.reverse⟩) := by
      intro start hstart
      refine @feed_digits_after start .exponent
        (fun soFar => ⟨negative, integer, fraction, exponentNegative, soFar⟩)
        (fun h => ?_) (fun soFar h => ?_) digits rest hne hrest
      · rcases hstart with rfl | rfl
        · simp only [numeralStep, decimalDigit_eq_some_iff.mpr h]
        · simp only [numeralStep, decimalDigit_eq_some_iff.mpr h]
      · simp only [numeralStep, decimalDigit_eq_some_iff.mpr h]
    refine ⟨.exponent, rfl, ?_⟩
    rw [feed, step, hopen]
    cases hsign with
    | absent => simp only [hmore _ (.inl rfl), List.nil_append]
    | plus =>
      have hplus : feed (.numeral .exponentMark ⟨negative, integer, fraction, false, []⟩) ['+'] =
          ([], .numeral .exponentSign ⟨negative, integer, fraction, false, []⟩) := rfl
      simp only [feed_append_of_eq hplus, hmore _ (.inr rfl), List.nil_append]
    | minus =>
      have hminus : feed (.numeral .exponentMark ⟨negative, integer, fraction, false, []⟩) ['-'] =
          ([], .numeral .exponentSign ⟨negative, integer, fraction, true, []⟩) := rfl
      simp only [feed_append_of_eq hminus, hmore _ (.inr rfl), List.nil_append]

end

theorem mem_of_isDigit {c : Char} {d : Nat} (h : Numeral.IsDigit 10 c d) :
    c ∈ Numeral.lowerDigits.take 10 := by
  have htake : ∀ table : List Char, table[d]? = some c → c ∈ table.take 10 := by
    intro table hd
    refine List.mem_of_getElem? (i := d) ?_
    rw [List.getElem?_take_of_lt h.1]
    exact hd
  rcases h.2 with hd | hd
  · exact htake Numeral.lowerDigits hd
  · exact htake Numeral.upperDigits hd

/-- A digit begins a number as it goes on with one that has no digits yet. -/
theorem step_of_isDigit {c : Char} {d : Nat} (h : Numeral.IsDigit 10 c d) :
    step .between c = step (.numeral .sign ⟨false, [], [], false, []⟩) c := by
  have hmem := mem_of_isDigit h
  simp only [Numeral.lowerDigits, List.take_succ_cons, List.take_zero, List.mem_cons,
    List.not_mem_nil, or_false] at hmem
  rcases hmem with rfl | rfl | rfl | rfl | rfl | rfl | rfl | rfl | rfl | rfl
  all_goals rfl

/-- A number begins with a digit behind its sign. -/
theorem exists_digit_of_spellsInteger {digits : List Nat} {written : List Char}
    (h : SpellsInteger digits written) :
    ∃ c d rest, written = c :: rest ∧ Numeral.IsDigit 10 c d := by
  cases h with
  | zero => exact ⟨'0', 0, [], rfl, by decide, .inl rfl⟩
  | positive hc _ _ => exact ⟨_, _, _, rfl, hc⟩

/-- A number is read up to its end as its parts, last digit first. -/
theorem feed_number {parts : Number.Parts} {written : List Char} (h : SpellsNumber parts written) :
    ∃ phase, phase.complete = true ∧ feed .between written =
      ([], .numeral phase ⟨parts.negative, parts.integer.reverse, parts.fraction.reverse,
        parts.exponentNegative, parts.exponent.reverse⟩) := by
  obtain ⟨negative, integerDigits, fractionDigits, exponentNegative, exponentDigits⟩ := parts
  cases h with
  | @intro integer fraction exponent hinteger hfraction hexponent =>
    obtain ⟨phase, hphase, hfeed⟩ := @feed_integer negative _ _ hinteger
    obtain ⟨phase', hphase', hfeed'⟩ :=
      @feed_fraction negative integerDigits.reverse _ _ _ hphase hfraction
    obtain ⟨phase'', hcomplete, hfeed''⟩ := @feed_exponent negative _
      integerDigits.reverse fractionDigits.reverse _ _ _ hphase' hexponent
    have hrest : feed (.numeral .sign ⟨negative, [], [], false, []⟩)
        (integer ++ (fraction ++ exponent)) = ([], .numeral phase'' ⟨negative,
          integerDigits.reverse, fractionDigits.reverse, exponentNegative,
          exponentDigits.reverse⟩) := by
      rw [feed_append_of_eq hfeed, feed_append_of_eq hfeed', hfeed'']
      rfl
    refine ⟨phase'', hcomplete, ?_⟩
    -- A number begins with its minus sign or at once with a digit, and goes on alike.
    cases negative with
    | true =>
      have hsign : feed .between ['-'] = ([], .numeral .sign ⟨true, [], [], false, []⟩) := rfl
      show feed .between (['-'] ++ (integer ++ (fraction ++ exponent))) = _
      rw [feed_append_of_eq hsign, hrest]
      rfl
    | false =>
      obtain ⟨c, d, more, rfl, hc⟩ := exists_digit_of_spellsInteger hinteger
      show feed .between (c :: more ++ (fraction ++ exponent)) = _
      rw [List.cons_append, feed, step_of_isDigit hc]
      exact hrest

/-- A number that may end ends before anything that cannot be part of it. -/
theorem numeralStep_of_complete {phase : NumeralPhase} (hcomplete : phase.complete = true)
    (parts : Number.Parts) {c : Char} (hdigit : decimalDigit c = none) (hpoint : c ≠ '.')
    (he : c ≠ 'e') (hE : c ≠ 'E') : numeralStep phase parts c = none := by
  cases phase with
  | zero => simp [numeralStep, hdigit, hpoint, he, hE]
  | integer => simp [numeralStep, hdigit, hpoint, he, hE]
  | fraction => simp [numeralStep, hdigit, he, hE]
  | exponent => simp [numeralStep, hdigit]
  | _ => cases hcomplete

/-- A number is over where none of its parts goes on. -/
theorem tokensFrom_numeral {phase : NumeralPhase} (hcomplete : phase.complete = true)
    (parts : Number.Parts) {rest : List Char} (h : Follows rest) :
    tokensFrom (.numeral phase parts) rest = numeralToken parts :: tokens rest := by
  cases rest with
  | nil =>
    show finish (.numeral phase parts) = [numeralToken parts]
    exact if_pos hcomplete
  | cons c more =>
    obtain ⟨hdigit, hpoint, he, hE⟩ := h c more rfl
    have hnone : decimalDigit c = none := by
      rw [Option.eq_none_iff_forall_ne_some]
      intro d hd
      exact hdigit d (decimalDigit_eq_some_iff.mp hd)
    have hstep : step (.numeral phase parts) c =
        (numeralToken parts :: (begin c).1, (begin c).2) := by
      simp [step, numeralStep_of_complete hcomplete parts hnone hpoint he hE, hcomplete, hnone]
    rw [tokensFrom, hstep]
    rfl

/-! ## Lexing a list of tokens -/

/-- Blanks between tokens leave no trace. -/
theorem feed_blanks {blanks : List Char} (h : ∀ c ∈ blanks, isBlank c = true) :
    feed .between blanks = ([], .between) := by
  induction blanks with
  | nil => rfl
  | cons c blanks ih =>
    have hstep : step .between c = ([], .between) := if_pos (h c (List.mem_cons_self ..))
    rw [feed, hstep, ih fun b hb => h b (List.mem_cons_of_mem _ hb)]
    rfl

theorem tokens_blanks_append {blanks : List Char} (h : ∀ c ∈ blanks, isBlank c = true)
    (rest : List Char) : tokens (blanks ++ rest) = tokens rest := by
  rw [tokens, tokensFrom_append, feed_blanks h]
  rfl

theorem isClosed_of_mem_fixedTokens {token : Token} (h : token ∈ fixedTokens) :
    token.IsClosed := by
  simp only [fixedTokens, List.mem_cons, List.not_mem_nil, or_false] at h
  rcases h with rfl | rfl | rfl | rfl | rfl | rfl | rfl | rfl | rfl
  all_goals trivial

/-- A spelled token comes before the tokens of what is behind it. -/
theorem tokens_spellsToken {token : Token} {written rest : List Char}
    (h : SpellsToken token written) (hend : (∃ value, token = .number value) → Follows rest) :
    tokens (written ++ rest) = token :: tokens rest := by
  cases h with
  | fixed hmem =>
    rw [tokens, tokensFrom_append, feed_written (isClosed_of_mem_fixedTokens hmem)]
    rfl
  | text hinside =>
    rw [tokens, tokensFrom_append, feed_text_token hinside]
    rfl
  | @number parts _ hnumber =>
    obtain ⟨phase, hcomplete, hfeed⟩ := feed_number hnumber
    rw [tokens, tokensFrom_append, hfeed, List.nil_append,
      tokensFrom_numeral hcomplete _ (hend ⟨_, rfl⟩), numeralToken]
    simp only [List.reverse_reverse]

/-- The lexer takes a spelled list of tokens for that list. -/
theorem tokens_of_spells {written : List Token} {text : List Char} (h : Spells written text) :
    tokens text = written := by
  induction h with
  | nil hblanks =>
    have htokens := tokens_blanks_append hblanks []
    rw [List.append_nil] at htokens
    exact htokens
  | cons hblanks htoken hend _ ih =>
    rw [tokens_blanks_append hblanks, tokens_spellsToken htoken hend, ih]

end Lexer

/-! ## The printed spelling -/

theorem mem_shortEscapes {letter c : Char} (h : Token.shortEscape c = some letter) :
    (letter, c) ∈ shortEscapes := by
  unfold Token.shortEscape at h
  split at h
  all_goals cases h
  all_goals simp [shortEscapes]

/-- A character is written as itself only if nothing else may stand for it. -/
theorem spellsChar_escaped (c : Char) : SpellsChar c (Token.escaped c) := by
  unfold Token.escaped
  cases hshort : Token.shortEscape c with
  | some letter => exact .short (mem_shortEscapes hshort)
  | none =>
    -- Without a short form, a control character is four digits, and any other is itself.
    by_cases hcontrol : c < ' '
    · have hlt : c.toNat < 32 := hcontrol
      obtain ⟨a, b, c', d, i, j, k, l, hhex, ha, hb, hc, hd, hvalue⟩ :=
        @Lexer.hex_four c.toNat (by omega)
      have hunit := SpellsUnit.numbered ha hb hc hd
      rw [hvalue] at hunit
      simp only [if_pos hcontrol, hhex]
      exact .unit hunit
    · have hquote : c ≠ '"' := by
        rintro rfl
        cases hshort
      have hslash : c ≠ '\\' := by
        rintro rfl
        cases hshort
      simp only [if_neg hcontrol]
      exact .itself hquote hslash hcontrol

/-- The escaped form of a text is one of its forms. -/
theorem spellsText_escaped (content : List Char) :
    SpellsText (some content) (content.flatMap Token.escaped) := by
  induction content with
  | nil => exact .nil
  | cons c content ih => exact .char (spellsChar_escaped c) ih

/-- What is written for a closed token is one of its forms. -/
theorem spellsToken_written {token : Token} (h : token.IsClosed) :
    SpellsToken token token.written := by
  cases token with
  | text content =>
    cases content with
    | none => exact absurd h id
    | some content =>
      have htext := SpellsToken.text (spellsText_escaped content.toList)
      rw [Option.map_some, String.ofList_toList] at htext
      exact htext
  | number value => exact absurd h id
  | broken first needed skipped => exact absurd h id
  | bool value => cases value <;> exact .fixed (by simp [fixedTokens])
  | _ => exact .fixed (by simp [fixedTokens])

/-- A token that has no blanks in front of it. -/
theorem Spells.close {token : Token} {tokens : List Token} {written rest : List Char}
    (h : SpellsToken token written) (hend : (∃ value, token = .number value) → Follows rest)
    (hrest : Spells tokens rest) : Spells (token :: tokens) (written ++ rest) :=
  @Spells.cons token tokens [] written rest (List.forall_mem_nil _) h hend hrest

/-- What may stand behind a number in a value ends it. -/
theorem follows_of_separator {c : Char}
    (h : Lexer.isBlank c = true ∨ c = ',' ∨ c = ']' ∨ c = '\x7d') (rest : List Char) :
    Follows (c :: rest) := by
  have hother : Lexer.decimalDigit c = none ∧ c ≠ '.' ∧ c ≠ 'e' ∧ c ≠ 'E' := by
    simp only [Lexer.isBlank, Bool.or_eq_true, decide_eq_true_eq] at h
    rcases h with ((((rfl | rfl) | rfl) | rfl) | rfl | rfl | rfl)
    all_goals exact ⟨rfl, by decide, by decide, by decide⟩
  rintro c' more hc
  obtain ⟨rfl, -⟩ := List.cons.inj hc
  refine ⟨fun d hd => ?_, hother.2⟩
  have hdigit := hother.1
  rw [Lexer.decimalDigit_eq_some_iff.mpr hd] at hdigit
  cases hdigit

/-- Blanks may be put in front. -/
theorem Spells.blanks_append {tokens : List Token} {blanks text : List Char}
    (hblanks : ∀ c ∈ blanks, Lexer.isBlank c = true) (h : Spells tokens text) :
    Spells tokens (blanks ++ text) := by
  cases h with
  | nil hmore => exact .nil (List.forall_mem_append.mpr ⟨hblanks, hmore⟩)
  | @cons _ _ more written rest hmore htoken hend hrest =>
    rw [← List.append_assoc]
    exact .cons (List.forall_mem_append.mpr ⟨hblanks, hmore⟩) htoken hend hrest

/-- Two spellings make one, unless the first ends with a number that goes on in the second. -/
theorem Spells.append {front back : List Token} {text rest : List Char} (h : Spells front text)
    (hback : Spells back rest) (hend : Follows rest) : Spells (front ++ back) (text ++ rest) := by
  induction h with
  | nil hblanks => exact hback.blanks_append hblanks
  | @cons token tokens blanks written more hblanks htoken hmore _ ih =>
    rw [List.append_assoc, List.append_assoc]
    refine .cons hblanks htoken ?_ ih
    intro hnumber
    cases more with
    | nil => exact hend
    | cons c more =>
      rintro c' more' hc
      obtain ⟨rfl, -⟩ := List.cons.inj hc
      exact hmore hnumber c more rfl

/-- Tokens may be written in the usual way in front of others that are spelled in some way. -/
theorem spells_written_append {front back : List Token} (h : Layout.AllClosed front)
    {rest : List Char} (hback : Spells back rest) :
    Spells (front ++ back) (front.flatMap Token.written ++ rest) := by
  induction front with
  | nil => exact hback
  | cons token front ih =>
    have htoken := h token (List.mem_cons_self ..)
    rw [List.flatMap_cons, List.append_assoc]
    refine .close (spellsToken_written htoken) ?_ (ih fun t ht => h t (List.mem_cons_of_mem _ ht))
    rintro ⟨value, rfl⟩
    exact absurd htoken id

/-- What is written for closed tokens is one of their forms, without any blank. -/
theorem spells_written {written : List Token} (h : Layout.AllClosed written) :
    Spells written (written.flatMap Token.written) := by
  have hnil : Spells [] [] := .nil (List.forall_mem_nil _)
  have hwritten := spells_written_append h hnil
  rw [List.append_nil, List.append_nil] at hwritten
  exact hwritten

/-- A printed list of tokens is one of its spellings, the one without blanks. -/
theorem spells_print {written : List Token} (h : Layout.AllClosed written) :
    Spells written (Layout.print written).toList := by
  rw [Layout.print, String.toList_ofList]
  exact spells_written h

end FixedWidth.Json
