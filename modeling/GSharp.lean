import GSharp.Main
import GSharp.Proofs.Evaluation.Permanence
import GSharp.Proofs.Evaluation.WellFormed
import GSharp.Proofs.Figure.OperandOrder
import GSharp.Proofs.Random.Ranges
import GSharp.Proofs.Scope.Chain
import GSharp.Proofs.Syntax.Completeness
import GSharp.Proofs.Value.Counting
import GSharp.Proofs.Evaluation.Declarations
import GSharp.Proofs.Evaluation.Drawing
import GSharp.Proofs.Evaluation.Lockstep
import GSharp.Proofs.Evaluation.CallDepth
import GSharp.Proofs.Evaluation.Chance
import GSharp.Proofs.Incremental
import GSharp.Proofs.Layout
import GSharp.Proofs.Token.Tiling
import GSharp.Proofs.Token.Respacing
import GSharp.Proofs.Origin
import GSharp.Proofs.Syntax.Segments
import GSharp.Proofs.Number.Difference
import GSharp.Proofs.Value.Joining
import GSharp.Proofs.Value.Mismatch
import GSharp.Proofs.Value.Grouping
import GSharp.Proofs.Syntax.Progress
import GSharp.Proofs.Syntax.Braces
import GSharp.Proofs.Figure.FewPoints
import GSharp.Proofs.Figure.Degenerate
import GSharp.Proofs.Figure.Shared
import GSharp.Proofs.Number.Rounding
import GSharp.Proofs.Number.Scaled
import GSharp.Proofs.Figure.Rounded
import GSharp.Proofs.Number.Conversion
import GSharp.Proofs.Figure.Narrowing
import GSharp.Proofs.Value.Text
