import FixedWidth.Json.Layout
import FixedWidth.Json.Lexer
import FixedWidth.Proofs.Numeral

/-!
# Lexing what has been written

The lexer is an automaton, so reading a text in two pieces is reading the first and going on from
the state that it leaves (`tokensFrom_append`). A token whose last character ends it leaves no state
behind: after its written form the lexer stands between two tokens again (`feed_written`). Hence

> `tokens_print`: the tokens of a printed list of such tokens are the list.

Inside a text the state is what has been read of it. One lemma covers a written character, whichever
of the three ways it is written in (`feed_escaped`); the rest is induction over the text.
-/

namespace FixedWidth.Json

namespace Lexer

/-! ## Reading in pieces -/

/-- The tokens that a piece of text finishes, and what is being read after it. -/
def feed (state : State) : List Char → List Token × State
  | [] => ([], state)
  | c :: rest =>
    ((step state c).1 ++ (feed (step state c).2 rest).1, (feed (step state c).2 rest).2)

theorem feed_append (state : State) (a b : List Char) :
    feed state (a ++ b) =
      ((feed state a).1 ++ (feed (feed state a).2 b).1, (feed (feed state a).2 b).2) := by
  induction a generalizing state with
  | nil => rfl
  | cons c a ih =>
    rw [List.cons_append, feed, ih]
    simp only [feed, List.append_assoc]

/-- The tokens of a text in two parts are those that the first part finishes and those of the
second, read on from there. -/
theorem tokensFrom_append (state : State) (a b : List Char) :
    tokensFrom state (a ++ b) = (feed state a).1 ++ tokensFrom (feed state a).2 b := by
  induction a generalizing state with
  | nil => rfl
  | cons c a ih =>
    rw [List.cons_append, tokensFrom, ih]
    simp only [feed, List.append_assoc]

/-- A piece that is read without a token leaves the reading of the rest to its last state. -/
theorem feed_append_of_eq {state next : State} {a b : List Char} {tokens : List Token}
    (h : feed state a = (tokens, next)) :
    feed state (a ++ b) = (tokens ++ (feed next b).1, (feed next b).2) := by
  rw [feed_append, h]

/-! ## Characters of a text -/

/-- Inside a text of which `soFar` has been read, last character first. -/
def inText (soFar : List Char) : State := .text .plain ⟨some soFar, none⟩

/-- A hexadecimal digit is one byte, so four of them fill an escape. -/
theorem utf8Size_of_isDigit {c : Char} {d : Nat} (h : Numeral.IsDigit 16 c d) :
    c.utf8Size = 1 := by
  have hall : (Numeral.lowerDigits ++ Numeral.upperDigits).all (·.utf8Size = 1) = true := by decide
  exact of_decide_eq_true (List.all_eq_true.mp hall c h.mem)

/-- A digit of a numbered escape that is not the last one. -/
theorem step_numbered {bytes code : Nat} {c : Char} {d : Nat} (soFar : TextSoFar)
    (hbytes : bytes < 3) (h : Numeral.IsDigit 16 c d) :
    step (.text (.numbered bytes (some code)) soFar) c =
      ([], .text (.numbered (bytes + 1) (some (code * 16 + d))) soFar) := by
  show textStep (.numbered bytes (some code)) soFar c = _
  unfold textStep
  rw [utf8Size_of_isDigit h, Numeral.digitIn_eq_some_iff.mpr h]
  exact if_pos (by omega)

/-- The last digit of a numbered escape. -/
theorem step_numbered_last {code : Nat} {c : Char} {d : Nat} (soFar : TextSoFar)
    (h : Numeral.IsDigit 16 c d) :
    step (.text (.numbered 3 (some code)) soFar) c =
      ([], .text .plain (soFar.pushUnit (code * 16 + d))) := by
  show textStep (.numbered 3 (some code)) soFar c = _
  unfold textStep
  rw [utf8Size_of_isDigit h, Numeral.digitIn_eq_some_iff.mpr h]
  exact if_neg (by omega)

/-- Four hexadecimal digits, of either case, are one unit of UTF-16. -/
theorem feed_fourDigits (soFar : TextSoFar) {a b c d : Char} {i j k l : Nat}
    (ha : Numeral.IsDigit 16 a i) (hb : Numeral.IsDigit 16 b j) (hc : Numeral.IsDigit 16 c k)
    (hd : Numeral.IsDigit 16 d l) :
    feed (.text .plain soFar) ['\\', 'u', a, b, c, d] =
      ([], .text .plain (soFar.pushUnit (((i * 16 + j) * 16 + k) * 16 + l))) := by
  have hescape : step (.text .plain soFar) '\\' = ([], .text .escape soFar) := rfl
  have hu : step (.text .escape soFar) 'u' = ([], .text (.numbered 0 (some 0)) soFar) := rfl
  have hfirst := @step_numbered 0 0 a i soFar (by omega) ha
  have hsecond := fun code => @step_numbered 1 code b j soFar (by omega) hb
  have hthird := fun code => @step_numbered 2 code c k soFar (by omega) hc
  simp only [feed, hescape, hu, hfirst, hsecond, hthird, step_numbered_last soFar hd,
    List.nil_append, Nat.zero_mul, Nat.zero_add]

/-- The four digits of a unit, put together again, are the unit. -/
theorem hex_four {unit : Nat} (h : unit < 65536) :
    ∃ a b c d i j k l, Numeral.hex 4 unit = [a, b, c, d] ∧ Numeral.IsDigit 16 a i ∧
      Numeral.IsDigit 16 b j ∧ Numeral.IsDigit 16 c k ∧ Numeral.IsDigit 16 d l ∧
      ((i * 16 + j) * 16 + k) * 16 + l = unit := by
  have hdigit : ∀ n, Numeral.IsDigit 16 (Numeral.digitChar (n % 16)) (n % 16) := by
    intro n
    exact Numeral.isDigit_digitChar (Nat.mod_lt n (by decide)) (Nat.mod_lt n (by decide))
  refine ⟨_, _, _, _, _, _, _, _, rfl, hdigit (unit / 16 / 16 / 16), hdigit (unit / 16 / 16),
    hdigit (unit / 16), hdigit unit, ?_⟩
  omega

/-- A unit is read back from its digits. -/
theorem feed_numbered (soFar : TextSoFar) {unit : Nat} (h : unit < 65536) :
    feed (.text .plain soFar) ('\\' :: 'u' :: Numeral.hex 4 unit) =
      ([], .text .plain (soFar.pushUnit unit)) := by
  obtain ⟨a, b, c, d, i, j, k, l, hhex, ha, hb, hc, hd, hvalue⟩ := hex_four h
  rw [hhex, ← hvalue]
  exact feed_fourDigits soFar ha hb hc hd

theorem pushUnit_of_lt (soFar : List Char) {unit : Nat} (h : unit < 0xd800) :
    TextSoFar.pushUnit ⟨some soFar, none⟩ unit = ⟨some (Char.ofNat unit :: soFar), none⟩ := by
  have hlead : (decide (0xd800 ≤ unit) && decide (unit < 0xdc00)) = false := by
    rw [decide_eq_false (by omega), Bool.false_and]
  have htrail : (decide (0xdc00 ≤ unit) && decide (unit < 0xe000)) = false := by
    rw [decide_eq_false (by omega), Bool.false_and]
  unfold TextSoFar.pushUnit
  simp only [hlead, htrail]
  rfl

/-- A character with a short escape is not read as itself. -/
theorem feed_shortEscape {c letter : Char} (h : Token.shortEscape c = some letter)
    (soFar : List Char) : feed (inText soFar) ['\\', letter] = ([], inText (c :: soFar)) := by
  unfold Token.shortEscape at h
  split at h
  all_goals cases h
  all_goals rfl

/-- A control character is written by its number, which is below those of the surrogates. -/
theorem feed_control {c : Char} (h : c < ' ') (soFar : List Char) :
    feed (inText soFar) (['\\', 'u'] ++ Numeral.hex 4 c.toNat) = ([], inText (c :: soFar)) := by
  have hlt : c.toNat < 32 := h
  show feed (.text .plain _) ('\\' :: 'u' :: Numeral.hex 4 c.toNat) = _
  rw [feed_numbered _ (by omega), pushUnit_of_lt soFar (by omega), Char.ofNat_toNat]
  rfl

theorem feed_plain {c : Char} (hquote : c ≠ '"') (hslash : c ≠ '\\') (hcontrol : ¬ c < ' ')
    (soFar : List Char) : feed (inText soFar) [c] = ([], inText (c :: soFar)) := by
  have hstep : step (inText soFar) c = ([], inText (c :: soFar)) := by
    show textStep .plain _ c = _
    unfold textStep
    rw [if_neg hquote, if_neg hslash, if_neg hcontrol]
    rfl
  rw [feed, hstep]
  rfl

/-- A character comes back from its escaped form. -/
theorem feed_escaped (c : Char) (soFar : List Char) :
    feed (inText soFar) (Token.escaped c) = ([], inText (c :: soFar)) := by
  unfold Token.escaped
  cases hshort : Token.shortEscape c with
  | some letter => exact feed_shortEscape hshort soFar
  | none =>
    -- The characters that end a text or open an escape have short escapes, so `c` is neither.
    have hquote : c ≠ '"' := by
      intro hc
      rw [hc] at hshort
      cases hshort
    have hslash : c ≠ '\\' := by
      intro hc
      rw [hc] at hshort
      cases hshort
    show feed (inText soFar) (if c < ' ' then _ else _) = _
    by_cases hcontrol : c < ' '
    · rw [if_pos hcontrol]
      exact feed_control hcontrol soFar
    · rw [if_neg hcontrol]
      exact feed_plain hquote hslash hcontrol soFar

/-- So do all characters of a text, by induction on them. -/
theorem feed_flatMap_escaped (cs soFar : List Char) :
    feed (inText soFar) (cs.flatMap Token.escaped) = ([], inText (cs.reverse ++ soFar)) := by
  induction cs generalizing soFar with
  | nil => rfl
  | cons c cs ih =>
    rw [List.flatMap_cons, feed_append_of_eq (feed_escaped c soFar), ih, List.reverse_cons,
      List.append_assoc]
    rfl

/-! ## Tokens -/

/-- A quoted text is read as its content. -/
theorem feed_quoted (content : String) :
    feed .between (Token.quoted content) = ([.text (some content)], .between) := by
  have hopen : feed .between ['"'] = ([], inText []) := rfl
  have hclose : feed (inText content.toList.reverse) ['"'] =
      ([.text (some (String.ofList content.toList.reverse.reverse))], .between) := rfl
  have hbody := feed_flatMap_escaped content.toList []
  rw [List.append_nil] at hbody
  show feed .between (['"'] ++ content.toList.flatMap Token.escaped ++ ['"']) = _
  rw [List.append_assoc, feed_append_of_eq hopen, feed_append_of_eq hbody, hclose,
    List.reverse_reverse, String.ofList_toList]
  rfl

end Lexer

/-- Whether the last character of the token's written form ends it, so that nothing has to come
after it. A numeral is over only at the next character. -/
def Token.IsClosed : Token → Prop
  | .openSquare | .closeSquare | .openCurly | .closeCurly | .comma | .colon | .null | .bool _
  | .text (some _) => True
  | .text none | .number _ | .broken .. => False

namespace Lexer

/-- A closed token comes back from what writes it, and nothing is left open. -/
theorem feed_written {token : Token} (h : token.IsClosed) :
    feed .between token.written = ([token], .between) := by
  cases token with
  | openSquare => rfl
  | closeSquare => rfl
  | openCurly => rfl
  | closeCurly => rfl
  | comma => rfl
  | colon => rfl
  | null => rfl
  | bool value => cases value <;> rfl
  | text content =>
    cases content with
    | none => exact absurd h id
    | some content => exact feed_quoted content
  | number value => exact absurd h id
  | broken first needed skipped => exact absurd h id

/-- Tokens one after another: each leaves the lexer between two tokens, so the rest is read as if it
stood alone. -/
theorem feed_flatMap_written {written : List Token} (h : ∀ token ∈ written, token.IsClosed) :
    feed .between (written.flatMap Token.written) = (written, .between) := by
  induction written with
  | nil => rfl
  | cons token rest ih =>
    have hrest := ih fun t ht => h t (List.mem_cons_of_mem _ ht)
    rw [List.flatMap_cons, feed_append_of_eq (feed_written (h token (List.mem_cons_self ..))), hrest]
    rfl

/-- The tokens of a printed list come first, whatever comes behind it. -/
theorem tokens_print_append {written : List Token} (h : ∀ token ∈ written, token.IsClosed)
    (text : List Char) :
    tokens ((Layout.print written).toList ++ text) = written ++ tokens text := by
  rw [Layout.print, String.toList_ofList, tokens, tokensFrom_append, feed_flatMap_written h]
  rfl

/-- The tokens of a printed list are the list. -/
theorem tokens_print {written : List Token} (h : ∀ token ∈ written, token.IsClosed) :
    tokens (Layout.print written).toList = written := by
  have hprint := tokens_print_append h []
  rw [List.append_nil] at hprint
  exact hprint.trans (List.append_nil written)

example : (Layout.print (Layout.text "\"\x01é")).toList = "\"\\\"\\u0001é\"".toList := by decide

end Lexer

end FixedWidth.Json
