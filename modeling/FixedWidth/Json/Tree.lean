import FixedWidth.Json.Reader

/-!
# JSON values

A value of any shape, for the places where the shape is not known before the value has been read,
and for those where a value is read only to be left out. `room` is the number of brackets that may
still be opened; a value that needs more is refused as malformed.

In the program: the buffer in which its JSON library keeps a value of unknown shape (`reader` for
`Use.kept`), and the way in which it passes over the value of an unknown field (`skip`). There the
latter takes no room however deep it goes; here its room is the number of tokens, which no value can
use up.
-/

namespace FixedWidth.Json

/-- A JSON value. Members of an object keep their order, and a key may come twice. -/
inductive Tree where
  | null
  | bool (value : Bool)
  | number (value : Number)
  | text (content : String)
  | array (items : List Tree)
  | object (members : List (String × Tree))

namespace Tree

/-- How deep brackets may nest in a value that is kept. -/
def nestingLimit : Nat := 127

/-- The value that is a single token. One that is skipped needs no content. -/
def ofToken (use : Use) : Token → Except Error Tree
  | .null => .ok .null
  | .bool value => .ok (.bool value)
  | .number (some value) => .ok (.number value)
  | .text (some content) => .ok (.text content)
  | .number none | .text none =>
    if use = .skipped then .ok .null else .error Reader.malformed
  | .broken _ needed skipped => .error (.fault (if use = .skipped then skipped else needed))
  | _ => .error Reader.malformed

/-- A value with at most `room` brackets inside one another. -/
def reader (use : Use) : (room : Nat) → Reader Tree
  | _, [] => .error Reader.endOfText
  | 0, .openSquare :: _ | 0, .openCurly :: _ => .error Reader.malformed
  | room + 1, .openSquare :: rest => (array <$> Reader.arrayRest (reader use room)) rest
  | room + 1, .openCurly :: rest =>
    ((fun members => object members.reverse) <$>
      Reader.objectRest use (fun members name => do
        Reader.expect .colon
        return (name, ← reader use room) :: members) []) rest
  | _, token :: rest => (ofToken use token).map (·, rest)

/-- A value that is of no concern, however deep it nests. -/
def skip : Reader Unit := do
  let _ ← reader .skipped (← get).length
  pure ()

end Tree

end FixedWidth.Json
