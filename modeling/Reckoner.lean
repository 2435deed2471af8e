import Reckoner.Expr.Conventional
import Reckoner.Expr.Walk
import Reckoner.Main
import Reckoner.Proofs.Expr.Parsed
import Reckoner.Proofs.Token.Seams
import Reckoner.Proofs.Walk.DepthLimit
import Reckoner.Token.Canonical
import Reckoner.Proofs.Token.RoundTrip
import Reckoner.Proofs.Expr.Caret
import Reckoner.Proofs.Decimal.Monotone
import Reckoner.Proofs.Decimal.ReadBack
import Reckoner.Proofs.Expr.Reread
import Reckoner.Proofs.Expr.Ignored
import Reckoner.Proofs.Conventional.Folding
import Reckoner.Proofs.Conventional.Agreement
import Reckoner.Proofs.Expr.Injective
import Reckoner.Proofs.Token.Kept
import Reckoner.Proofs.Session.Answers
import Reckoner.Proofs.Grammar.Exchange
import Reckoner.Proofs.Token.Lexemes
import Reckoner.Proofs.Token.OnePass
import Reckoner.Proofs.Expr.Enclosed
import Reckoner.Proofs.Expr.Grouped
import Reckoner.Proofs.Expr.Neighbours
import Reckoner.Proofs.Expr.Kinds
import Reckoner.Proofs.Expr.Offenders
import Reckoner.Proofs.Token.Joined
import Reckoner.Proofs.Binary64.Value
import Reckoner.Binary64.Trapping
import Reckoner.Proofs.Binary64.Remainder
import Reckoner.Proofs.Binary64.Signs
import Reckoner.Proofs.Binary64.Traps
import Reckoner.Proofs.Decimal.Typed
import Reckoner.Proofs.Expr.Numbers
