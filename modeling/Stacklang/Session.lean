import Stacklang.Bytecode.Snapshot
import Stacklang.Compile.Program
import Stacklang.Machine.Run
import Stacklang.Program.Parse

namespace Stacklang

inductive EvalError where
  | parse (errors : List ParseError)
  | compile (error : CompileError)
  | runtime (error : RuntimeError)
  | crashed
  | unfinished
  deriving Repr, DecidableEq

def EvalError.message : EvalError → String
  | parse errors =>
      "parser errors:" ++ String.join (errors.map fun error => "\n\t" ++ error.message)
  | compile error => error.message
  | runtime error => error.message
  | crashed => "stack access out of bounds"
  | unfinished => "out of steps"

/-- Bytecode to run, with the identity of its constant pool. -/
structure Image where
  bytecode : Bytecode
  pool : Nat
  deriving DecidableEq

/-- What lasts from input to input. The constants of all inputs are one pool, number zero. -/
structure Session where
  scope : Scope
  constants : Array Constant
  globals : Array Value
  config : Config
  loaded : Nat
  world : World

namespace Session

def new (config : Config) : Session :=
  ⟨.withBuiltins, #[], #[], config, 0, .fresh⟩

def silence (session : Session) : Session :=
  { session with world := { session.world with printed := "" } }

/-- Compiles an input against the session's bindings. An input that cannot be compiled leaves the
session as it was. -/
def compile (session : Session) (source : String) : Except EvalError Image × Session :=
  match Program.ofSource source with
  | .error errors => (.error (.parse errors), session)
  | .ok program =>
      match (Compiler.resume session.scope session.constants).add program with
      | (.error error, _) => (.error (.compile error), session)
      | (.ok (), compiler) =>
          (.ok ⟨compiler.bytecode, 0⟩,
            { session with scope := compiler.scope, constants := compiler.constants })

/-- Takes in a snapshot, whose constants are a pool of their own. -/
def load (session : Session) (bytes : List UInt8) : Except LoadError Image × Session :=
  match Bytecode.ofBytes bytes with
  | .error error => (.error error, session)
  | .ok bytecode =>
      (.ok ⟨bytecode, session.loaded + 1⟩, { session with loaded := session.loaded + 1 })

/-- Runs bytecode on the session's globals. The value is the one most recently taken from the stack.
What was bound before an error stays bound. -/
def run (fuel : Nat) (session : Session) (image : Image) : Except EvalError Value × Session :=
  let (outcome, machine) :=
    Machine.run fuel
      (.start image.bytecode image.pool session.globals session.config session.world)
  let session := { session with globals := machine.globals, world := machine.world }
  match outcome with
  | .finished => (.ok machine.lastPopped, session)
  | .failed error => (.error (.runtime error), session)
  | .crashed => (.error .crashed, session)
  | .unfinished => (.error .unfinished, session)

def eval (fuel : Nat) (session : Session) (source : String) : Except EvalError Value × Session :=
  match session.compile source with
  | (.error error, session) => (.error error, session)
  | (.ok image, session) => session.run fuel image

end Session

end Stacklang
