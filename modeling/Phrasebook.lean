import Phrasebook.Main
import Phrasebook.Proofs.Text.Lowercase
import Phrasebook.Proofs.Grammar.RoundTrip
import Phrasebook.Proofs.Grammar.KeyNotation
import Phrasebook.Proofs.Grammar.Juxtaposition
import Phrasebook.Proofs.Grammar.Completion
import Phrasebook.Proofs.Grammar.Concatenation
import Phrasebook.Proofs.Scan.Machine
import Phrasebook.Proofs.Scan.Simulation
import Phrasebook.Proofs.Scan.Permanence
import Phrasebook.Proofs.Evaluation.Ensures
import Phrasebook.Proofs.Evaluation.Soundness
import Phrasebook.Proofs.Evaluation.Agreement
import Phrasebook.Proofs.Evaluation.Sequence
import Phrasebook.Proofs.Evaluation.Calls
import Phrasebook.Proofs.Evaluation.Depth
import Phrasebook.Proofs.Evaluation.Branch
import Phrasebook.Proofs.Session.Reports
import Phrasebook.Proofs.Session.Joining
import Phrasebook.Proofs.Session.Values
import Phrasebook.Proofs.Session.Builtins
import Phrasebook.Proofs.Evaluation.Frames
import Phrasebook.Proofs.Evaluation.Arguments
import Phrasebook.Proofs.Evaluation.Exchange
import Phrasebook.Proofs.Evaluation.Limit
import Phrasebook.Proofs.Console.Cuts
import Phrasebook.Proofs.Evaluation.Nesting
import Phrasebook.Proofs.Evaluation.Termination
import Phrasebook.Proofs.Evaluation.Throwing
import Phrasebook.Proofs.Session.Missing
import Phrasebook.Proofs.Evaluation.Naming
import Phrasebook.Proofs.Session.Respelling
import Phrasebook.Proofs.Reader.Positions
import Phrasebook.Proofs.Reader.Termination
import Phrasebook.Proofs.Grammar.Enclosure
import Phrasebook.Proofs.Scope.Lookup
import Phrasebook.Proofs.Tree.Record
import Phrasebook.Proofs.Session.Excerpt
