import Stacklang.Machine.Step

namespace Stacklang

inductive Outcome where
  | finished
  | failed (error : RuntimeError)
  | crashed
  | unfinished
  deriving Repr, DecidableEq

namespace Machine

def outcome (machine : Machine) : Stop → Outcome
  | .fault fault => .failed ⟨fault, machine.trace⟩
  | .builtinFault builtin fault => .failed ⟨fault, .inBuiltin builtin.name :: machine.trace⟩
  | .crash => .crashed

def runFor : (fuel : Nat) → Machine → Outcome × Machine
  | 0, machine => (.unfinished, machine)
  | fuel + 1, machine =>
      match step.run machine with
      | (.ok true, machine) => runFor fuel machine
      | (.ok false, machine) => (.finished, machine)
      | (.error stop, machine) => (machine.outcome stop, machine)

/-- Runs until the main program ends, counting steps from zero. After a fault, a run goes on from
where the machine stopped. -/
def run (fuel : Nat) (machine : Machine) : Outcome × Machine :=
  runFor fuel { machine with steps := 0 }

end Machine

end Stacklang
