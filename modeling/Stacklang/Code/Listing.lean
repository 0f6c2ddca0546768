import Stacklang.Code.Instruction

namespace Stacklang.Code

structure Line where
  offset : Nat
  text : String
  target? : Option Nat
  deriving Repr, DecidableEq

/-- Goes on with the lines of a stream from an offset; `done` holds those before it, latest first.
The first byte that does not decode has an error for its line, which is the last one. -/
def linesFrom (code : Code) (offset : Nat) (done : List Line) : List Line :=
  if inside : offset < code.size then
    match Opcode.ofByte? code[offset] with
    | none =>
        (⟨offset, "ERROR: " ++ (DecodeFault.unknownOpcode code[offset]).message, none⟩ ::
          done).reverse
    | some op =>
        match code.readOperands? (offset + 1) op.widths with
        | none => (⟨offset, "ERROR: " ++ (DecodeFault.truncated op).message, none⟩ :: done).reverse
        | some (operands, read) =>
            let instruction : Instruction := ⟨op, operands⟩
            code.linesFrom (offset + (1 + read))
              (⟨offset, instruction.display, instruction.target?⟩ :: done)
  else done.reverse
  termination_by code.size - offset

def lines (code : Code) : List Line :=
  code.linesFrom 0 []

def listing (code : Code) : String :=
  String.join (code.lines.map fun line => Text.offset line.offset ++ " " ++ line.text ++ "\n")

def targetRule : String :=
  "      ┌──────────────────────────────────\n"

def Line.annotated (targets : List Nat) (line : Line) : String :=
  let marked := targets.contains line.offset
  (if marked then targetRule else "") ++ Text.offset line.offset ++ " " ++
    (if marked then "► " else "  ") ++ line.text ++
    (match line.target? with
      | some target => "  (→ " ++ Text.offset target ++ ")"
      | none => "") ++ "\n"

def annotatedListing (code : Code) : String :=
  let lines := code.lines
  String.join (lines.map (Line.annotated (lines.filterMap (·.target?))))

end Stacklang.Code
