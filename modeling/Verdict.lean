import Verdict.Main
import Verdict.Rule
import Verdict.Tree.Stored
import Verdict.Proofs.Command.Storage
import Verdict.Proofs.Command.Tracing
import Verdict.Proofs.Evaluation.AnyOf
import Verdict.Proofs.Evaluation.LastLevel
import Verdict.Proofs.Evaluation.Mentioned
import Verdict.Proofs.Tree.Disjunction
import Verdict.Proofs.Tree.Reprint
import Verdict.Proofs.Token.Cuts
import Verdict.Proofs.Tree.Unlimited
import Verdict.Proofs.Json.Ordered
import Verdict.Proofs.Tree.Schema
import Verdict.Proofs.Evaluation.FirstFailure
import Verdict.Proofs.Tree.WellFormed
import Verdict.Proofs.Evaluation.Skeleton
import Verdict.Proofs.Record.NanFree
import Verdict.Proofs.Evaluation.Comparison
import Verdict.Proofs.Evaluation.Equality
import Verdict.Proofs.Tree.Repair
import Verdict.Proofs.Tree.Grouping
import Verdict.Proofs.Tree.Chain
import Verdict.Proofs.Tree.Refusal
import Verdict.Proofs.Tree.JoinedTexts
import Verdict.Proofs.Token.Spacing
import Verdict.Proofs.Evaluation.Log
import Verdict.Proofs.Evaluation.Operand
import Verdict.Proofs.Record.Storage
import Verdict.Proofs.Rule.Storage
import Verdict.Proofs.Evaluation.Missing
import Verdict.Proofs.Program.Outcome
import Verdict.Proofs.Settings.Layers
import Verdict.Proofs.Json.Survey
import Verdict.Proofs.Tree.Bookkeeping
import Verdict.Proofs.Tree.Places
import Verdict.Proofs.Program.Given
