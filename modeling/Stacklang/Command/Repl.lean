import Stacklang.Session
import Stacklang.Text.Backspace
import Stacklang.Text.WhiteSpace

namespace Stacklang.Repl

def banner : String :=
  "simian 0.1.0\nType exit or Ctrl+D to quit\n\n"

structure Answer where
  out : String
  err : String
  session : Session

def inputOf (line : String) : String :=
  Text.trim (Text.applyBackspaces line)

def respond (fuel : Nat) (session : Session) (input : String) : Answer :=
  let (result, session) := session.silence.eval fuel input
  let printed := session.world.printed
  match result with
  | .ok value => ⟨printed ++ value.display ++ "\n", "", session⟩
  | .error error => ⟨printed, error.message ++ "\n", session⟩

inductive Request where
  | nothing
  | quit
  | eval (input : String)
  deriving Repr, DecidableEq

def Request.ofLine (line : String) : Request :=
  let input := inputOf line
  if input.isEmpty then .nothing
  else if input == "exit" then .quit
  else .eval input

def converse (fuel : Nat) (session : Session) (out err : String) : List String → String × String
  | [] => (out, err)
  | line :: rest =>
      match Request.ofLine line with
      | .nothing => converse fuel session out err rest
      | .quit => (out, err)
      | .eval input =>
          let answer := respond fuel session input
          converse fuel answer.session (out ++ answer.out) (err ++ answer.err) rest

end Stacklang.Repl
