import FixedWidth.Json.Token
import FixedWidth.Literal

/-!
# Errors of documents

Why a text is not a document: it is no JSON text, or it is one of another shape. A document is read
in one pass, and the first thing that is wrong is the error.

In the program: the errors of its JSON library, as far as the kind of an error and the text about it
show. The place of an error is left out. `withoutPosition` is what the library does to the text of
an error that the program raises while it reads a value: it takes a place at the end of that text
for one of its own, and cuts it off.
-/

namespace FixedWidth.Json

/-- How a well-formed JSON text fails to be what was asked for. -/
inductive Mismatch where
  /-- Another kind of JSON value stands there. -/
  | invalidType (found : Token) (expected : String)
  /-- A name is none of those that may stand there. -/
  | unknownVariant (name : String) (options : List String)
  /-- An object lacks a field. -/
  | missingField (name : String)
  /-- An object has a field twice. -/
  | duplicateField (name : String)
  /-- An array ends before all fields of a structure were read. -/
  | invalidLength (length : Nat) (expected : String)
  /-- A text is no literal. -/
  | invalidLiteral (cause : LiteralError)
  /-- A value fits none of the forms that may stand there. -/
  | noVariant (expected : String)
  deriving DecidableEq

/-- Why a text is not a document. -/
inductive Error where
  | fault (cause : Fault)
  | mismatch (cause : Mismatch)
  deriving DecidableEq

/-! ## Positions at the end of a message -/

/-- A number of a position, and what comes after it. The number is at most that of a 64-bit word. -/
def positionNumber (text : List Char) : Option (List Char) :=
  let digits := text.takeWhile Char.isDigit
  match Numeral.read 10 0 Numeral.greatestWord digits with
  | .ok _ => some (text.dropWhile Char.isDigit)
  | .error _ => none

/-- What comes after a given beginning of a text. -/
def after (beginning text : List Char) : Option (List Char) :=
  if beginning.isPrefixOf text then some (text.drop beginning.length) else none

/-- Whether a text is a position, as in ` at line 3 column 14`. -/
def isPosition (text : List Char) : Bool :=
  ((after " at line ".toList text).bind positionNumber).bind (after " column ".toList)
    |>.bind positionNumber |>.any List.isEmpty

/-- A message without the position at its end, if it has one. Only the last mention of a line
counts. -/
def withoutPosition (message : List Char) : List Char :=
  match message with
  | [] => []
  | c :: rest => if isPosition message then [] else c :: withoutPosition rest

namespace Mismatch

/-- The names of a choice, each between grave accents. -/
def options (names : List String) : String :=
  ", ".intercalate (names.map fun name => "`" ++ name ++ "`")

/-- The mismatch in words. The reader of a value adds the position at which it stopped, so a
complaint about a literal that already ends in one is taken to have it. -/
def message : Mismatch → String
  | invalidType found expected => "invalid type: " ++ found.described ++ ", expected " ++ expected
  | unknownVariant name names =>
    "unknown variant `" ++ name ++ "`, expected one of " ++ options names
  | missingField name => "missing field `" ++ name ++ "`"
  | duplicateField name => "duplicate field `" ++ name ++ "`"
  | invalidLength length expected =>
    "invalid length " ++ Numeral.decimalText length ++ ", expected " ++ expected
  | invalidLiteral cause => String.ofList (withoutPosition cause.message.toList)
  | noVariant expected => "data did not match any variant of untagged enum " ++ expected

end Mismatch

namespace Error

/-- What is said about the error. A fault of the text is told by its kind alone. -/
def message : Error → String
  | fault _ => ""
  | mismatch cause => cause.message

end Error

end FixedWidth.Json
