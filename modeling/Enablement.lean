import Enablement.VerdictCache
import Enablement.Proofs.Condition.Encodings
import Enablement.Proofs.Condition.Indifference
import Enablement.Proofs.Condition.Modes
import Enablement.Proofs.Condition.Surrogates
import Enablement.Proofs.Document.Storing
import Enablement.Proofs.Eval.Arithmetic
import Enablement.Proofs.Eval.Extremum
import Enablement.Proofs.Eval.Folding
import Enablement.Proofs.Eval.Kinds
import Enablement.Proofs.Eval.Log
import Enablement.Proofs.Eval.Marks
import Enablement.Proofs.Eval.Regrouping
import Enablement.Proofs.Expr.Crossing
import Enablement.Proofs.Expr.Depth
import Enablement.Proofs.Expr.Discipline
import Enablement.Proofs.Expr.Limits
import Enablement.Proofs.Expr.Rereading
import Enablement.Proofs.Token.Exactness
import Enablement.Proofs.VerdictCache.Occupancy
import Enablement.Proofs.VerdictCache.Transparency
