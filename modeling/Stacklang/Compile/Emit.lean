import Stacklang.Bytecode
import Stacklang.Compile.Error
import Stacklang.Scope

namespace Stacklang

structure Emitted where
  op : Opcode
  offset : Nat
  deriving Repr, DecidableEq

structure Draft where
  code : Code
  last? : Option Emitted
  previous? : Option Emitted
  deriving Repr, DecidableEq

namespace Draft

def empty : Draft := ⟨#[], none, none⟩

def push : Draft → Instruction → Draft
  | ⟨code, last?, _⟩, instruction =>
      let offset := code.size
      ⟨code.append instruction.encode, some ⟨instruction.op, offset⟩, last?⟩

def endsWith (draft : Draft) (op : Opcode) : Bool :=
  match draft.last? with
  | some last => last.op == op
  | none => false

def dropLast : Draft → Draft
  | ⟨code, some last, previous?⟩ => ⟨code.truncate last.offset, previous?, previous?⟩
  | draft => draft

def replaceLast (op : Opcode) : Draft → Draft
  | ⟨code, some last, previous?⟩ =>
      ⟨code.overwrite last.offset (Instruction.encode ⟨op, []⟩), some ⟨op, last.offset⟩, previous?⟩
  | draft => draft

end Draft

/-- A compilation: the constants so far, the names in scope, the code of the function at hand and of
those around it, the main program last. -/
structure Compiler where
  constants : Array Constant
  scope : Scope
  draft : Draft
  pending : List Draft
  deriving DecidableEq

namespace Compiler

/-- A compilation that goes on with the names and constants of an earlier one. -/
def resume (scope : Scope) (constants : Array Constant) : Compiler :=
  ⟨constants, scope, .empty, []⟩

def fresh : Compiler :=
  resume .withBuiltins #[]

def bytecode (compiler : Compiler) : Bytecode :=
  ⟨compiler.draft.code, compiler.constants⟩

end Compiler

/-- A step of a compilation. What it did before an error stays done. -/
abbrev CompileM := ExceptT CompileError (StateM Compiler)

def Opcode.resource (op : Opcode) (position : Nat) : Resource :=
  match op, position with
  | constant, _ => .constants
  | closure, 0 => .constants
  | closure, _ => .freeVariables
  | getFree, _ => .freeVariables
  | getGlobal, _ | setGlobal, _ => .globals
  | getLocal, _ | setLocal, _ => .locals
  | getBuiltin, _ => .builtins
  | array, _ => .arrayElements
  | hash, _ => .hashOperands
  | call, _ => .arguments
  | jump, _ | jumpNotTruthy, _ => .jumpDistance
  | _, _ => .operands

namespace Compile

def misfit? (op : Opcode) (position : Nat) : List (Nat × Width) → Option CompileError
  | [] => none
  | (operand, width) :: rest =>
      if operand > width.maximum then
        some (.outOfRange (op.resource position) operand width.maximum)
      else misfit? op (position + 1) rest

def checkOperands (op : Opcode) (operands : List Nat) : CompileM Unit :=
  match misfit? op 0 (operands.zip op.widths) with
  | some error => throw error
  | none => pure ()

def modifyDraft (change : Draft → Draft) : CompileM Unit :=
  modify fun compiler => { compiler with draft := change compiler.draft }

def here : CompileM Nat := do
  return (← get).draft.code.size

def emit (op : Opcode) (operands : List Nat := []) : CompileM Nat := do
  checkOperands op operands
  let offset ← here
  modifyDraft (·.push ⟨op, operands⟩)
  return offset

def patch (offset operand : Nat) : CompileM Unit := do
  match (← get).draft.code[offset]? with
  | none => throw (.internal ("no instruction at " ++ Text.padded 1 offset))
  | some byte =>
      match Opcode.ofByte? byte with
      | none =>
          throw (.internal
            ("unknown opcode " ++ Text.padded 1 byte.toNat ++ " at " ++ Text.padded 1 offset))
      | some op =>
          checkOperands op [operand]
          modifyDraft fun draft =>
            { draft with code := draft.code.overwrite offset (Instruction.encode ⟨op, [operand]⟩) }

def lastIs (op : Opcode) : CompileM Bool := do
  return (← get).draft.endsWith op

def addConstant (constant : Constant) : CompileM Nat := do
  let index := (← get).constants.size
  modify fun compiler => { compiler with constants := compiler.constants.push constant }
  return index

def define (name : String) : CompileM Symbol := do
  let (symbol, scope) := (← get).scope.define name
  modify fun compiler => { compiler with scope }
  return symbol

def defineSelf (name : String) : CompileM Unit :=
  modify fun compiler => { compiler with scope := (compiler.scope.defineSelf name).2 }

def resolve (name : String) : CompileM Symbol := do
  match (← get).scope.resolve name with
  | none => throw (.unresolved name)
  | some (symbol, scope) =>
      modify fun compiler => { compiler with scope }
      return symbol

def load (symbol : Symbol) : CompileM Unit :=
  match symbol.place with
  | .global => discard (emit .getGlobal [symbol.index])
  | .localSlot => discard (emit .getLocal [symbol.index])
  | .builtin => discard (emit .getBuiltin [symbol.index])
  | .captured => discard (emit .getFree [symbol.index])
  | .self => discard (emit .currentClosure)

def loadAll : List Symbol → CompileM Unit
  | [] => pure ()
  | symbol :: rest => do
      load symbol
      loadAll rest

def enterFunction : CompileM Unit :=
  modify fun compiler =>
    { compiler with
      scope := compiler.scope.enter
      draft := .empty
      pending := compiler.draft :: compiler.pending }

def leaveFunction : CompileM Code := do
  let compiler ← get
  match compiler.pending, compiler.scope.leave? with
  | [], _ => throw (.internal "cannot leave the main scope")
  | _, none => throw (.internal "function scope has no outer table")
  | draft :: pending, some scope =>
      set { compiler with scope, draft, pending }
      return compiler.draft.code

def attempt (step : CompileM Unit) : CompileM (Except CompileError Unit) :=
  ExceptT.lift step.run

end Compile

end Stacklang
