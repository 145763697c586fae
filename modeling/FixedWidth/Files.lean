import FixedWidth.Scenario.Reader

/-!
# Files

What a path leads to. `Files` is any way of asking for the content of a file; a `Folder` is one that
is held in memory and answers as a working directory with the same plain files would. Loading a
matrix goes from a path to scenarios, and its error names the path.

In the program: `load_matrix` and `MatrixError` of the scenario format. The file system is a
parameter here, and only what it answers for a path counts. `Folder` has no counterpart: it is the
file system of a directory of plain files.
-/

namespace FixedWidth

/-- Why a file has no content. -/
inductive FileError where
  | notFound
  | isDirectory
  | notDirectory
  /-- The bytes of the file are not UTF-8. -/
  | notText
  /-- Anything else that the system says. -/
  | system (text : String)
  deriving DecidableEq, Repr

/-- The error in the words of the system. -/
def FileError.message : FileError → String
  | notFound => "No such file or directory (os error 2)"
  | isDirectory => "Is a directory (os error 21)"
  | notDirectory => "Not a directory (os error 20)"
  | notText => "stream did not contain valid UTF-8"
  | system text => text

/-- The bytes that every path leads to. -/
abbrev Files := String → Except FileError ByteArray

/-! ## Folders in memory -/

/-- A folder of plain files. -/
structure Folder where
  files : List (String × ByteArray)

namespace Folder

/-- What a path leads to, by its parts between slashes. An empty part and a single dot stay where
they are; nothing is known of what lies outside of the folder. -/
def follow (folder : Folder) : List String → Except FileError ByteArray
  | [] => .error .isDirectory
  | name :: rest =>
    if name = "" ∨ name = "." then folder.follow rest
    else if name = ".." then if rest.isEmpty then .error .isDirectory else .error .notFound
    else
      match folder.files.lookup name with
      | none => .error .notFound
      | some content => if rest.isEmpty then .ok content else .error .notDirectory

/-- The parts of a path between its slashes. -/
def parts (path : List Char) : List String :=
  (path.splitOn '/').map String.ofList

/-- The content of a file of the folder. -/
def contents (folder : Folder) : Files := fun path =>
  if path = "" then .error .notFound else folder.follow (parts path.toList)

end Folder

/-! ## Loading -/

/-- Why a path leads to no matrix. -/
inductive LoadError where
  | unreadable (path : String) (cause : FileError)
  | unparsable (path : String) (cause : Json.Error)

/-- The error in words. -/
def LoadError.message : LoadError → String
  | unreadable path cause => "Failed to read " ++ path ++ ": " ++ cause.message
  | unparsable path cause => "Failed to parse " ++ path ++ ": " ++ cause.message

namespace Files

/-- The text of a file. -/
def text (files : Files) (path : String) : Except FileError String :=
  match files path with
  | .error e => .error e
  | .ok bytes =>
    match String.fromUTF8? bytes with
    | none => .error .notText
    | some text => .ok text

/-- The matrix that a file holds. -/
def load (files : Files) (path : String) : Except LoadError Matrix :=
  match files.text path with
  | .error e => .error (.unreadable path e)
  | .ok text =>
    match Matrix.read text with
    | .error e => .error (.unparsable path e)
    | .ok m => .ok m

end Files

end FixedWidth
