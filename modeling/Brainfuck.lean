import Brainfuck.Deque
import Brainfuck.Main
import Brainfuck.Proofs.Command.Lines
import Brainfuck.Proofs.Peephole.NormalForm
import Brainfuck.Proofs.Peephole.Preservation
import Brainfuck.Proofs.Source.Meaning
import Brainfuck.Proofs.Source.Positions
import Brainfuck.Proofs.Source.Runs
import Brainfuck.Proofs.Go.Evaluate
import Brainfuck.Proofs.Go.Flushing
import Brainfuck.Proofs.Go.Indentation
import Brainfuck.Proofs.Go.Names
import Brainfuck.Proofs.Go.Refusals
import Brainfuck.Proofs.Go.Uniqueness
import Brainfuck.Proofs.Listing.Located
import Brainfuck.Proofs.Loops.Agreement
import Brainfuck.Proofs.Loops.Canonical
import Brainfuck.Proofs.Structure.Execution
import Brainfuck.Proofs.Compile.Verdict
import Brainfuck.Proofs.SavedProgram.Format
import Brainfuck.Proofs.Statistics.Rows
import Brainfuck.Proofs.Wire.Exact
import Brainfuck.Proofs.Wire.Settings
import Brainfuck.Proofs.Machine.Reuse
import Brainfuck.Proofs.Machine.Foresight
import Brainfuck.Proofs.Machine.StepLimit
import Brainfuck.Proofs.Files.Writing
import Brainfuck.Proofs.Path.Settled
import Brainfuck.Proofs.Session.Build
import Brainfuck.Proofs.Session.Refusal
import Brainfuck.Proofs.Session.Saved
