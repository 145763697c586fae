import FixedWidth.Json.Token

/-!
# Lexing JSON

The tokens of a text, by an automaton that takes one character at a time. A state says what is
being read and what has been read of it; a step gives the tokens that are finished by the character
and the next state. Once a token is broken nothing more is read.

In the program: the part of its JSON library that reads words, numbers and texts, character by
character and on demand. Here all of the text is cut up beforehand. A fault is not reported when it
is met but kept as a token, so that a reader finds it where the library would.
-/

namespace FixedWidth.Json.Lexer

/-- How far a numeral has come. -/
inductive NumeralPhase where
  | sign
  | zero
  | integer
  | point
  | fraction
  | exponentMark
  | exponentSign
  | exponent
  deriving DecidableEq, Repr

/-- How far the current character of a text has come. -/
inductive TextPhase where
  /-- No escape is open. -/
  | plain
  /-- A backslash has been read. -/
  | escape
  /-- The digits of a numbered escape are being read: how many bytes of them, and their value
  unless one was no digit. -/
  | numbered (bytes : Nat) (code : Option Nat)
  deriving DecidableEq, Repr

/-- What has been read of a text. -/
structure TextSoFar where
  /-- The characters, last one first; `none` once half of a surrogate pair stood alone. -/
  content : Option (List Char)
  /-- The first half of a surrogate pair that waits for the second. -/
  lead : Option Nat
  deriving DecidableEq

/-- What is being read. -/
inductive State where
  /-- Nothing: a token may begin. -/
  | between
  /-- One of the words `null`, `true` and `false`: the letters still to come, and its token. -/
  | word (first : Char) (rest : List Char) (token : Token)
  /-- A numeral, with its digits last one first. -/
  | numeral (phase : NumeralPhase) (parts : Number.Parts)
  /-- A text. -/
  | text (phase : TextPhase) (soFar : TextSoFar)
  /-- Nothing any more. -/
  | stopped
  deriving DecidableEq

/-- The blanks that may stand between tokens. -/
def isBlank (c : Char) : Bool := c = ' ' || c = '\n' || c = '\t' || c = '\r'

/-- The value of a decimal digit. -/
def decimalDigit (c : Char) : Option Nat := Numeral.digitIn 10 c

/-- The end of reading at a character that cannot stand where it does. -/
def malformed (first : Char) : List Token × State :=
  ([.broken first .malformed .malformed], .stopped)

/-! ## Numerals -/

/-- The numeral whose digits have been collected last one first. -/
def numeralToken (parts : Number.Parts) : Token :=
  .number (Number.ofParts
    { parts with
      integer := parts.integer.reverse
      fraction := parts.fraction.reverse
      exponent := parts.exponent.reverse })

/-- The first character of a numeral. -/
def numeralFirst (parts : Number.Parts) : Char := if parts.negative then '-' else '0'

/-- Whether a numeral may end after a phase. -/
def NumeralPhase.complete : NumeralPhase → Bool
  | zero | integer | fraction | exponent => true
  | sign | point | exponentMark | exponentSign => false

/-- The numeral with one more character, if it can be part of it. -/
def numeralStep (phase : NumeralPhase) (parts : Number.Parts) (c : Char) :
    Option (NumeralPhase × Number.Parts) :=
  match phase, decimalDigit c with
  | .sign, some d =>
    some (if d = 0 then .zero else .integer, { parts with integer := [d] })
  | .integer, some d => some (.integer, { parts with integer := d :: parts.integer })
  | .point, some d | .fraction, some d =>
    some (.fraction, { parts with fraction := d :: parts.fraction })
  | .exponentMark, some d | .exponentSign, some d | .exponent, some d =>
    some (.exponent, { parts with exponent := d :: parts.exponent })
  | .zero, none | .integer, none =>
    if c = '.' then some (.point, parts)
    else if c = 'e' ∨ c = 'E' then some (.exponentMark, parts)
    else none
  | .fraction, none => if c = 'e' ∨ c = 'E' then some (.exponentMark, parts) else none
  | .exponentMark, none =>
    if c = '+' then some (.exponentSign, parts)
    else if c = '-' then some (.exponentSign, { parts with exponentNegative := true })
    else none
  | _, _ => none

/-! ## Texts -/

/-- The text with one more character. Half of a surrogate pair that waits has waited in vain. -/
def TextSoFar.push (soFar : TextSoFar) (c : Char) : TextSoFar :=
  match soFar.lead with
  | some _ => ⟨none, none⟩
  | none => ⟨soFar.content.map (c :: ·), none⟩

/-- The text with one more code unit of UTF-16. -/
def TextSoFar.pushUnit (soFar : TextSoFar) (unit : Nat) : TextSoFar :=
  let isLead := 0xd800 ≤ unit && unit < 0xdc00
  let isTrail := 0xdc00 ≤ unit && unit < 0xe000
  match soFar.lead with
  | some lead =>
    if isTrail then
      let code := 0x10000 + (lead - 0xd800) * 0x400 + (unit - 0xdc00)
      ⟨soFar.content.map (Char.ofNat code :: ·), none⟩
    else ⟨none, none⟩
  | none =>
    if isLead then ⟨soFar.content, some unit⟩
    else if isTrail then ⟨none, none⟩
    else soFar.push (Char.ofNat unit)

/-- The token of a finished text. -/
def TextSoFar.token (soFar : TextSoFar) : Token :=
  .text (match soFar.lead with
    | some _ => none
    | none => soFar.content.map fun cs => String.ofList cs.reverse)

/-- The character that a short escape stands for. -/
def unescape (letter : Char) : Option Char :=
  match letter with
  | '"' => some '"'
  | '\\' => some '\\'
  | '/' => some '/'
  | 'b' => some '\x08'
  | 'f' => some '\x0c'
  | 'n' => some '\n'
  | 'r' => some '\r'
  | 't' => some '\t'
  | _ => none

/-- One character inside a text. The four digits of a numbered escape are cut out as four bytes
before any of them is looked at. -/
def textStep (phase : TextPhase) (soFar : TextSoFar) (c : Char) : List Token × State :=
  match phase with
  | .plain =>
    if c = '"' then ([soFar.token], .between)
    else if c = '\\' then ([], .text .escape soFar)
    else if c < ' ' then malformed '"'
    else ([], .text .plain (soFar.push c))
  | .escape =>
    if c = 'u' then ([], .text (.numbered 0 (some 0)) soFar)
    else
      match unescape c with
      | some meant => ([], .text .plain (soFar.push meant))
      | none => malformed '"'
  | .numbered bytes code =>
    let bytes := bytes + c.utf8Size
    let code := code.bind fun n => (Numeral.digitIn 16 c).map fun d => n * 16 + d
    if bytes < 4 then ([], .text (.numbered bytes code) soFar)
    else
      match code with
      | some unit => ([], .text .plain (soFar.pushUnit unit))
      | none => malformed '"'

/-! ## The automaton -/

/-- One character where a token may begin. -/
def begin (c : Char) : List Token × State :=
  if isBlank c then ([], .between)
  else
    match c with
    | '[' => ([.openSquare], .between)
    | ']' => ([.closeSquare], .between)
    | '\x7b' => ([.openCurly], .between)
    | '\x7d' => ([.closeCurly], .between)
    | ',' => ([.comma], .between)
    | ':' => ([.colon], .between)
    | '"' => ([], .text .plain ⟨some [], none⟩)
    | 'n' => ([], .word 'n' ['u', 'l', 'l'] .null)
    | 't' => ([], .word 't' ['r', 'u', 'e'] (.bool true))
    | 'f' => ([], .word 'f' ['a', 'l', 's', 'e'] (.bool false))
    | '-' => ([], .numeral .sign ⟨true, [], [], false, []⟩)
    | c =>
      match numeralStep .sign ⟨false, [], [], false, []⟩ c with
      | some (phase, parts) => ([], .numeral phase parts)
      | none => malformed c

/-- One character: the tokens that it finishes, and what is being read after it. -/
def step (state : State) (c : Char) : List Token × State :=
  match state with
  | .between => begin c
  | .word first rest token =>
    match rest with
    | [] => malformed first
    | [letter] => if c = letter then ([token], .between) else malformed first
    | letter :: rest => if c = letter then ([], .word first rest token) else malformed first
  | .numeral phase parts =>
    match numeralStep phase parts c with
    | some (phase, parts) => ([], .numeral phase parts)
    | none =>
      -- A digit can end up here only after a leading zero.
      if !phase.complete || (decimalDigit c).isSome then malformed (numeralFirst parts)
      else
        -- The character is not part of the numeral, so it begins what comes after it.
        let (tokens, state) := begin c
        (numeralToken parts :: tokens, state)
  | .text phase soFar => textStep phase soFar c
  | .stopped => ([], .stopped)

/-- The tokens that the end of the text finishes or breaks. -/
def finish : State → List Token
  | .between | .stopped => []
  | .word first _ _ => [.broken first .endOfText .endOfText]
  | .numeral phase parts =>
    if phase.complete then [numeralToken parts]
    -- A reader that skips a numeral asks for a digit and finds none, whatever the reason.
    else [.broken (numeralFirst parts) .endOfText .malformed]
  | .text _ soFar =>
    -- Half of a surrogate pair is met before the end, but only by a reader that decodes it.
    [.broken '"' (if soFar.content.isNone then .malformed else .endOfText) .endOfText]

/-- The tokens of the rest of a text. -/
def tokensFrom (state : State) : List Char → List Token
  | [] => finish state
  | c :: rest => (step state c).1 ++ tokensFrom (step state c).2 rest

/-- The tokens of a text. -/
def tokens (text : List Char) : List Token := tokensFrom .between text

end FixedWidth.Json.Lexer
