import Stacklang.Builtin
import Stacklang.Builtin.Apply
import Stacklang.Bytecode
import Stacklang.Bytecode.Listing
import Stacklang.Bytecode.Snapshot
import Stacklang.Bytecode.Verify
import Stacklang.Code.Instruction
import Stacklang.Code.Listing
import Stacklang.Code.Opcode
import Stacklang.Command
import Stacklang.Command.Repl
import Stacklang.Compile.Emit
import Stacklang.Compile.Error
import Stacklang.Compile.Program
import Stacklang.Fault
import Stacklang.Machine
import Stacklang.Machine.Run
import Stacklang.Machine.Step
import Stacklang.Main
import Stacklang.Program
import Stacklang.Program.Evaluate
import Stacklang.Program.Parse
import Stacklang.Scope
import Stacklang.Session
import Stacklang.Text.Alphabetic
import Stacklang.Text.Backspace
import Stacklang.Text.CaseRun
import Stacklang.Text.Conjunct
import Stacklang.Text.Decimal
import Stacklang.Text.Grapheme
import Stacklang.Text.GraphemeBreak
import Stacklang.Text.GraphemeExtend
import Stacklang.Text.Lowercase
import Stacklang.Text.Numeric
import Stacklang.Text.Pictograph
import Stacklang.Text.Pieces
import Stacklang.Text.Printable
import Stacklang.Text.Quoted
import Stacklang.Text.Range
import Stacklang.Text.SpacingMark
import Stacklang.Text.Uppercase
import Stacklang.Text.WhiteSpace
import Stacklang.Token
import Stacklang.Token.Lexer
import Stacklang.Token.Listing
import Stacklang.Value
import Stacklang.Value.HashKey
import Stacklang.Proofs.Builtin.Answers
import Stacklang.Proofs.Builtin.Heap
import Stacklang.Proofs.Builtin.Related
import Stacklang.Proofs.Builtin.Texts
import Stacklang.Proofs.Bytecode.Accepted
import Stacklang.Proofs.Bytecode.Decoders
import Stacklang.Proofs.Bytecode.Reloaded
import Stacklang.Proofs.Code.Listed
import Stacklang.Proofs.Code.Scanned
import Stacklang.Proofs.Code.Stream
import Stacklang.Proofs.Compile.Calls
import Stacklang.Proofs.Compile.Completion
import Stacklang.Proofs.Compile.Emits
import Stacklang.Proofs.Compile.Flow
import Stacklang.Proofs.Compile.Forward
import Stacklang.Proofs.Compile.Functions
import Stacklang.Proofs.Compile.Globals
import Stacklang.Proofs.Compile.Incremental
import Stacklang.Proofs.Compile.Instructions
import Stacklang.Proofs.Compile.Outcome
import Stacklang.Proofs.Compile.Ready
import Stacklang.Proofs.Compile.Rearranged
import Stacklang.Proofs.Compile.Renaming
import Stacklang.Proofs.Compile.Restored
import Stacklang.Proofs.Compile.Scoped
import Stacklang.Proofs.Compile.Settled
import Stacklang.Proofs.Compile.Simulates
import Stacklang.Proofs.Compile.Simulation
import Stacklang.Proofs.Compile.Situated
import Stacklang.Proofs.Compile.Success
import Stacklang.Proofs.Compile.Survey
import Stacklang.Proofs.Compile.Verified
import Stacklang.Proofs.Fallible
import Stacklang.Proofs.Machine.Activation
import Stacklang.Proofs.Machine.Bounded
import Stacklang.Proofs.Machine.Cut
import Stacklang.Proofs.Machine.Effect
import Stacklang.Proofs.Machine.Everywhere
import Stacklang.Proofs.Machine.Extended
import Stacklang.Proofs.Machine.Halts
import Stacklang.Proofs.Machine.Hashes
import Stacklang.Proofs.Machine.Housed
import Stacklang.Proofs.Machine.Live
import Stacklang.Proofs.Machine.Moves
import Stacklang.Proofs.Machine.Orderly
import Stacklang.Proofs.Machine.Ready
import Stacklang.Proofs.Machine.Sound
import Stacklang.Proofs.Machine.Stored
import Stacklang.Proofs.Machine.Traced
import Stacklang.Proofs.Machine.Verified
import Stacklang.Proofs.Machine.Visits
import Stacklang.Proofs.Program.Displayed
import Stacklang.Proofs.Program.Ending
import Stacklang.Proofs.Program.Evaluated
import Stacklang.Proofs.Program.Grammar
import Stacklang.Proofs.Program.Reading
import Stacklang.Proofs.Program.Renaming
import Stacklang.Proofs.Program.RoundTrip
import Stacklang.Proofs.Program.Settled
import Stacklang.Proofs.Program.Spelling
import Stacklang.Proofs.Program.Walk
import Stacklang.Proofs.Program.Yields
import Stacklang.Proofs.Scope.Consistent
import Stacklang.Proofs.Scope.Renaming
import Stacklang.Proofs.Scope.Valid
import Stacklang.Proofs.Session.Coherent
import Stacklang.Proofs.Session.Desk
import Stacklang.Proofs.Session.Editions
import Stacklang.Proofs.Session.Globals
import Stacklang.Proofs.Session.Inputs
import Stacklang.Proofs.Session.Names
import Stacklang.Proofs.Session.Rejected
import Stacklang.Proofs.Session.Running
import Stacklang.Proofs.Session.Settled
import Stacklang.Proofs.Text.Pieces
import Stacklang.Proofs.Token.Layout
import Stacklang.Proofs.Token.Written
import Stacklang.Proofs.Value.Entries
import Stacklang.Proofs.Value.Equality
import Stacklang.Proofs.Value.Heap
import Stacklang.Proofs.Value.Related
import Stacklang.Proofs.Machine.Fetched
