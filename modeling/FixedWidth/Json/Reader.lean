import FixedWidth.Json.Error
import FixedWidth.Json.Lexer

/-!
# Readers of JSON

A reader takes a value off the front of a list of tokens, or says what is the first thing wrong with
it. Arrays and objects are read one member at a time: `nextElement` and `nextKey` look for the
closing bracket without taking it, so whoever asks decides how many members there may be. The loops
over members are bounded by the tokens that are left, since every member takes one at least.

In the program: the way in which its JSON library lets derived code read texts, names, arrays and
objects, one member at a time. It reads characters where these readers take tokens, and a loop over
members ends there when the text does, so `bound` has no counterpart.
-/

namespace FixedWidth.Json

/-- Takes a value off the front of the tokens. -/
abbrev Reader (α : Type) := StateT (List Token) (Except Error) α

/-- What becomes of a value that is read. Of one that is only skipped, less has to be sound. -/
inductive Use where
  | kept
  | skipped
  deriving DecidableEq, Repr

namespace Reader

variable {α σ : Type}

/-- The text ends where more was needed. -/
def endOfText : Error := .fault .endOfText

/-- A token stands where no JSON text has it. -/
def malformed : Error := .fault .malformed

/-- Fails without a look at the tokens. -/
def fail (e : Error) : Reader α := fun _ => .error e

/-- The complaint about the token at which a value of another kind begins. A token without content
is a fault of the text before it is one of kind. -/
def unexpected (expected : String) (found : Token) : Error :=
  match found with
  | .broken _ needed _ => .fault needed
  | .text none | .number none | .closeSquare | .closeCurly | .comma | .colon => malformed
  | _ => .mismatch (.invalidType found expected)

/-- A text. -/
def text : Reader String
  | [] => .error endOfText
  | .text (some content) :: rest => .ok (content, rest)
  | found :: _ => .error (unexpected "a string" found)

/-- The word `null`. -/
def unit : Reader Unit
  | [] => .error endOfText
  | .null :: rest => .ok ((), rest)
  | found :: _ => .error (unexpected "unit" found)

/-- A value, or `null` in its place. -/
def optional (item : Reader α) : Reader (Option α)
  | .null :: rest => .ok (none, rest)
  | .broken 'n' needed _ :: _ => .error (.fault needed)
  | tokens => (some <$> item) tokens

/-- One token that leaves no choice. -/
def expect (token : Token) : Reader Unit
  | [] => .error endOfText
  | found :: rest => if found = token then .ok ((), rest) else .error malformed

/-! ## Arrays -/

/-- The next element of an array, or `none` at its closing bracket, which is left standing. A comma
comes before every element but the first. -/
def nextElement (isFirst : Bool) (item : Reader α) : Reader (Option α)
  | [] => .error endOfText
  | .closeSquare :: rest => .ok (none, .closeSquare :: rest)
  | .comma :: rest => if isFirst then .error malformed else (some <$> item) rest
  | tokens => if isFirst then (some <$> item) tokens else .error malformed

/-- The elements of an array up to its closing bracket. -/
def elements (item : Reader α) : (bound : Nat) → (isFirst : Bool) → Reader (List α)
  | 0, _ => fail endOfText
  | bound + 1, isFirst => do
    match ← nextElement isFirst item with
    | none => pure []
    | some x => return x :: (← elements item bound false)

/-- The rest of an array after its opening bracket. -/
def arrayRest (item : Reader α) : Reader (List α) := do
  let xs ← elements item (← get).length true
  expect .closeSquare
  pure xs

/-- An array of values. -/
def array (item : Reader α) : Reader (List α)
  | [] => .error endOfText
  | .openSquare :: rest => arrayRest item rest
  | found :: _ => .error (unexpected "a sequence" found)

/-- The element of an array in a fixed place, or what stands for it once the array has ended. -/
def element (isFirst : Bool) (item absent : Reader α) : Reader α := do
  match ← nextElement isFirst item with
  | some x => pure x
  | none => absent

/-! ## Objects -/

/-- A key. -/
def key (use : Use) : Reader String
  | [] => .error endOfText
  | .text (some content) :: rest => .ok (content, rest)
  | .text none :: rest => if use = .skipped then .ok ("", rest) else .error malformed
  | .broken '"' needed skipped :: _ =>
    .error (.fault (if use = .skipped then skipped else needed))
  | _ :: _ => .error malformed

/-- The next key of an object, or `none` at its closing bracket, which is left standing. A comma
comes before every key but the first. -/
def nextKey (use : Use) (isFirst : Bool) : Reader (Option String)
  | [] => .error endOfText
  | .closeCurly :: rest => .ok (none, .closeCurly :: rest)
  | .comma :: rest => if isFirst then .error malformed else (some <$> key use) rest
  | tokens => if isFirst then (some <$> key use) tokens else .error malformed

/-- The members of an object up to its closing bracket. `member` goes on from what has been read so
far when a key has been taken; its colon and its value are still to come. -/
def members (use : Use) (member : σ → String → Reader σ) :
    (bound : Nat) → (isFirst : Bool) → σ → Reader σ
  | 0, _, _ => fail endOfText
  | bound + 1, isFirst, soFar => do
    match ← nextKey use isFirst with
    | none => pure soFar
    | some name => members use member bound false (← member soFar name)

/-- The rest of an object after its opening bracket. -/
def objectRest (use : Use) (member : σ → String → Reader σ) (start : σ) : Reader σ := do
  let result ← members use member (← get).length true start
  expect .closeCurly
  pure result

/-! ## Choices -/

/-- The meaning of a name that has to be one of a few. -/
def named (names : List String) (ofName? : String → Option α) (name : String) : Reader α :=
  match ofName? name with
  | some x => pure x
  | none => fail (.mismatch (.unknownVariant name names))

/-- One of a few names: as a text, or as the only key of an object that holds `null`. That key is
read as any other key of an object, so what is no text in its place is malformed and no mismatch. -/
def choice (names : List String) (ofName? : String → Option α) : Reader α
  | [] => .error endOfText
  | .text (some name) :: rest => named names ofName? name rest
  | .openCurly :: rest =>
    (do
      let x ← named names ofName? (← key .kept)
      expect .colon
      unit
      expect .closeCurly
      pure x : Reader α) rest
  | .broken '"' needed _ :: _ => .error (.fault needed)
  | _ :: _ => .error malformed

/-! ## Whole texts -/

/-- A value and nothing after it. -/
def document (value : Reader α) (tokens : List Token) : Except Error α :=
  match value tokens with
  | .error e => .error e
  | .ok (x, []) => .ok x
  | .ok (_, _ :: _) => .error malformed

/-- The value that a text holds. -/
def read (value : Reader α) (text : String) : Except Error α :=
  document value (Lexer.tokens text.toList)

end Reader

end FixedWidth.Json
