import FixedWidth.Json.Number
import FixedWidth.Text.Quoted

/-!
# Tokens of a JSON text

What a JSON text is made of once its blanks are gone. A token that only some readers can use says
so itself: a text with half of a surrogate pair has no content, a number beyond the doubles has no
value, and yet both may stand where nothing is read from them. A token that is cut short or
malformed is the last one of its text.

In the program there are no tokens: its JSON library reads values straight off the characters, and
decides at each of them what to complain about. `broken` keeps apart the two complaints that depend
on who reads.
-/

namespace FixedWidth.Json

/-- Why a text is not a JSON text. -/
inductive Fault where
  /-- It ends too early. -/
  | endOfText
  /-- It goes on in a way that no JSON text does. -/
  | malformed
  deriving DecidableEq, Repr

/-- A token. -/
inductive Token where
  | openSquare
  | closeSquare
  | openCurly
  | closeCurly
  | comma
  | colon
  | null
  | bool (value : Bool)
  /-- A text; `none` if an escape in it is half of a surrogate pair. -/
  | text (content : Option String)
  /-- A number; `none` if it is beyond the range of doubles. -/
  | number (value : Option Number)
  /-- A token that begins with some character and is not finished: what a reader that needs its
  content makes of it, and what one that only skips it does. -/
  | broken (first : Char) (needed skipped : Fault)
  deriving DecidableEq

namespace Token

/-- The short escape of a character, if it has one. -/
def shortEscape (c : Char) : Option Char :=
  match c with
  | '"' => some '"'
  | '\\' => some '\\'
  | '\x08' => some 'b'
  | '\x0c' => some 'f'
  | '\n' => some 'n'
  | '\r' => some 'r'
  | '\t' => some 't'
  | _ => none

/-- A character as it is written inside a text: the short escape if there is one, its number if it
is another control below the space, and itself otherwise. -/
def escaped (c : Char) : List Char :=
  match shortEscape c with
  | some letter => ['\\', letter]
  | none => if c < ' ' then ['\\', 'u'] ++ Numeral.hex 4 c.toNat else [c]

/-- A text as a token is written. -/
def quoted (content : String) : List Char :=
  '"' :: content.toList.flatMap escaped ++ ['"']

/-- The characters that write a token. -/
def written : Token → List Char
  | openSquare => ['[']
  | closeSquare => [']']
  | openCurly => ['\x7b']
  | closeCurly => ['\x7d']
  | comma => [',']
  | colon => [':']
  | null => ['n', 'u', 'l', 'l']
  | bool true => ['t', 'r', 'u', 'e']
  | bool false => ['f', 'a', 'l', 's', 'e']
  | text content => quoted (content.getD "")
  | number value => (value.getD (.whole 0)).text
  | broken .. => []

/-- How a complaint names what begins with a token. -/
def described : Token → String
  | openSquare => "sequence"
  | openCurly => "map"
  | null => "null"
  | bool value => "boolean `" ++ (if value then "true" else "false") ++ "`"
  | text content => "string " ++ String.ofList (Text.quoted (content.getD ""))
  | number (some (.real x)) => "floating point `" ++ String.ofList (Number.realText x) ++ "`"
  | number value => "integer `" ++ String.ofList (value.getD (.whole 0)).text ++ "`"
  | closeSquare | closeCurly | comma | colon | broken .. => ""

end Token

end FixedWidth.Json
