import FixedWidth.Json.Token

/-!
# Writing JSON

Values as lists of tokens, and the text of a list of tokens. The text has no blanks, so it is just
what the tokens are written as, one after another.

In the program: the compact form in which its JSON library writes values.
-/

namespace FixedWidth.Json.Layout

/-- The tokens of a text. -/
def text (content : String) : List Token := [.text (some content)]

/-- The tokens of lists, with a comma between any two of them. -/
def separated : List (List Token) → List Token
  | [] => []
  | [item] => item
  | item :: next :: rest => item ++ .comma :: separated (next :: rest)

/-- The tokens of an array, from those of its elements. -/
def array (items : List (List Token)) : List Token :=
  .openSquare :: separated items ++ [.closeSquare]

/-- The tokens of a member of an object. -/
def member (key : String) (value : List Token) : List Token :=
  .text (some key) :: .colon :: value

/-- The tokens of an object, from those of its members. -/
def object (members : List (List Token)) : List Token :=
  .openCurly :: separated members ++ [.closeCurly]

/-- The text that the tokens write. -/
def print (tokens : List Token) : String :=
  String.ofList (tokens.flatMap Token.written)

end FixedWidth.Json.Layout
