import Stacklang.Command

namespace Stacklang.Command

def ampleFuel : Nat := Nat.pow 2 62

def reasonOf : IO.Error → String
  | .noFileOrDirectory .. => Directory.notFound
  | error => toString error

def readFile (path : String) : IO (Except String (List UInt8)) := do
  try
    return .ok (← IO.FS.readBinFile path).toList
  catch error => return .error (reasonOf error)

def writeFile (path : String) (bytes : List UInt8) : IO (Except String Unit) := do
  try
    IO.FS.writeBinFile path ⟨bytes.toArray⟩
    return .ok ()
  catch error => return .error (reasonOf error)

/-- Reads lines and answers each before the next is read. -/
partial def dialogue (input : IO.FS.Stream) (session : Session) : IO Unit := do
  let line ← input.getLine
  if line.isEmpty then return ()
  match Repl.Request.ofLine line with
  | .nothing => dialogue input session
  | .quit => return ()
  | .eval text =>
      let answer := Repl.respond ampleFuel session text
      IO.print answer.out
      IO.eprint answer.err
      dialogue input answer.session

def finish (report : Report) : IO UInt32 := do
  IO.print report.out
  IO.eprint report.err
  return UInt32.ofNat report.code

def execute (arguments : List String) : IO UInt32 := do
  match Action.ofArguments arguments with
  | .repl =>
      IO.print Repl.banner
      dialogue (← IO.getStdin) (.new .standard)
      return 0
  | action =>
      let content ← match action.path? with
        | some path => readFile path
        | none => pure (.ok [])
      let report := action.perform ampleFuel content []
      match report.write? with
      | none => finish report
      | some (path, bytes) =>
          match ← writeFile path bytes with
          | .ok () => finish report
          | .error reason => finish (report.unwritable path reason)

end Stacklang.Command

def main (arguments : List String) : IO UInt32 :=
  Stacklang.Command.execute arguments
