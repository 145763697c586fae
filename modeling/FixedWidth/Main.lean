import FixedWidth.Command.Perform

/-!
# The program

Reads the files that a command names, carries it out, and hands over what it wrote.

In the program: `main`. There a file is read when its turn comes; here all files that the command
names are read before it is carried out. The log, which the program can show beside its output, is
not shown.
-/

namespace FixedWidth

/-- A complaint of the system about a file. -/
def fileError (e : IO.Error) : FileError :=
  let numbered (code : UInt32) (details : String) : FileError :=
    .system (details ++ " (os error " ++ Numeral.decimalText code.toNat ++ ")")
  match e with
  | .noFileOrDirectory .. => .notFound
  | .permissionDenied _ code details => numbered code details
  | .inappropriateType _ code details =>
    if code = 21 then .isDirectory else if code = 20 then .notDirectory else numbered code details
  | .otherError code details => numbered code details
  | e => .system e.toString

/-- The paths of the files that a command reads. -/
def Command.paths : Command → List String
  | run paths => paths
  | _ => []

/-- The content of files as far as they can be read. -/
def readFiles (paths : List String) : IO Files := do
  let contents ← paths.mapM fun (path : String) => do
    try
      pure (path, Except.ok (← IO.FS.readBinFile path))
    catch e => pure (path, .error (fileError e))
  return fun path => (contents.lookup path).getD (.error .notFound)

end FixedWidth

open FixedWidth in
/-- Carries out the command of the arguments. -/
def main (arguments : List String) : IO UInt32 := do
  let paths := match Command.ofArguments arguments with
    | .ok command => command.paths
    | .error _ => []
  let (result, sink) := (Command.invoke (← readFiles paths) arguments {}).value
  let conclusion := Command.conclude result
  (← IO.getStdout).write ⟨sink.taken.toArray⟩
  IO.eprint conclusion.complaint
  return UInt32.ofNat conclusion.status
