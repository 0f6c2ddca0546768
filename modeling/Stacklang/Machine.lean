import Stacklang.Builtin.Apply

namespace Stacklang

structure Config where
  stackSize : Nat
  /-- The most calls in progress, the main program included. -/
  maxFrames : Nat
  globalsSize : Nat
  maxSteps : Option Nat
  deriving Repr, DecidableEq

def Config.standard : Config := ⟨2048, 1024, 65536, none⟩

/-- A call in progress: the closure that runs, the offset of its next instruction and the stack slot
of its first local. -/
structure Frame where
  ref : Ref
  template : Template
  captured : List Value
  ip : Nat
  base : Nat
  deriving Inhabited

/-- A machine. Its stack has a fixed size; the slots below `sp` are in use, the others keep what was
last written there. -/
structure Machine where
  constants : Array Constant
  pool : Nat
  stack : Array Value
  sp : Nat
  globals : Array Value
  frame : Frame
  callers : List Frame
  config : Config
  steps : Nat
  world : World

namespace Machine

/-- The globals, with nulls added up to the size that the machine is to have. -/
def extendGlobals (globals : Array Value) (size : Nat) : Array Value :=
  globals ++ Array.replicate (size - globals.size) Value.null

def start (bytecode : Bytecode) (pool : Nat) (globals : Array Value) (config : Config)
    (world : World) : Machine :=
  let (ref, world) := world.allocate
  { constants := bytecode.constants
    pool
    stack := Array.replicate config.stackSize Value.null
    sp := 0
    globals := extendGlobals globals config.globalsSize
    frame := ⟨ref, ⟨bytecode.code, 0, 0⟩, [], 0, 0⟩
    callers := []
    config
    steps := 0
    world }

def lastPopped (machine : Machine) : Value :=
  machine.stack.getD machine.sp Value.null

def top? (machine : Machine) : Option Value :=
  if machine.sp = 0 then none else machine.stack[machine.sp - 1]?

def silence (machine : Machine) : Machine :=
  { machine with world := { machine.world with printed := "" } }

def frames (machine : Machine) : List Frame :=
  machine.frame :: machine.callers

/-- Where the calls that wait have stopped, innermost first; the last one is the main program. -/
def callerTrace : List Frame → List TraceLine
  | [] => []
  | [main] => [.inMain (main.ip - Opcode.call.size)]
  | caller :: callers =>
      .inFunction caller.template.parameters (caller.ip - Opcode.call.size) :: callerTrace callers

def trace (machine : Machine) : List TraceLine :=
  match machine.callers with
  | [] => [.inMain machine.frame.ip]
  | callers =>
      .inFunction machine.frame.template.parameters machine.frame.ip :: callerTrace callers

end Machine

/-- How a step ends a run early: with a fault, which may come from a builtin, or with an access
outside the stack. -/
inductive Stop where
  | fault (fault : Fault)
  | builtinFault (builtin : Builtin) (fault : Fault)
  | crash
  deriving Repr, DecidableEq

/-- A step of a machine. What it did before it stopped stays done. -/
abbrev MachineM := ExceptT Stop (StateM Machine)

end Stacklang
