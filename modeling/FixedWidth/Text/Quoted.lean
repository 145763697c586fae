import FixedWidth.Numeral
import FixedWidth.Text.Invisible

/-!
# Quoted texts

How a complaint shows a text that stands where something else belongs: between quotation marks,
with a backslash before what would end or disturb the quotation.

In the program: the debug text of a string, which its JSON library puts into a complaint.
-/

namespace FixedWidth.Text

/-- The hexadecimal digits of a number, without leading zeros. -/
def hexDigits (n : Nat) : List Char :=
  if n < 16 then [Numeral.digitChar n] else hexDigits (n / 16) ++ [Numeral.digitChar (n % 16)]
termination_by n
decreasing_by omega

/-- A character as it stands in a quoted text. -/
def quotedChar (c : Char) : List Char :=
  match c with
  | '\x00' => ['\\', '0']
  | '\t' => ['\\', 't']
  | '\r' => ['\\', 'r']
  | '\n' => ['\\', 'n']
  | '\\' => ['\\', '\\']
  | '"' => ['\\', '"']
  | c =>
    if isInvisible c then ['\\', 'u', '\x7b'] ++ hexDigits c.toNat ++ ['\x7d'] else [c]

/-- A text between quotation marks. -/
def quoted (text : String) : List Char :=
  '"' :: text.toList.flatMap quotedChar ++ ['"']

end FixedWidth.Text
