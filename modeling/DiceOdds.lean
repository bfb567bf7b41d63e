import DiceOdds.Main
import DiceOdds.Proofs.Order
import DiceOdds.Proofs.Keyed
import DiceOdds.Proofs.WellFormed
import DiceOdds.Proofs.Conversion
import DiceOdds.Proofs.Agreement
import DiceOdds.Proofs.Computation
import DiceOdds.Proofs.Expectation
import DiceOdds.Proofs.Lookup
import DiceOdds.Proofs.Law
import DiceOdds.Proofs.Construction
import DiceOdds.Proofs.PoolLaw
import DiceOdds.Proofs.Evaluation
import DiceOdds.Proofs.Precedence
import DiceOdds.Proofs.Spelling
import DiceOdds.Proofs.Reading
import DiceOdds.Proofs.Numeral
import DiceOdds.Proofs.PoolText
import DiceOdds.Proofs.Lexing
import DiceOdds.Proofs.PoolNotation
import DiceOdds.Proofs.Words
import DiceOdds.Proofs.Literal
import DiceOdds.Proofs.Display
import DiceOdds.Proofs.Session
import DiceOdds.Proofs.Grammar
import DiceOdds.Proofs.Span
import DiceOdds.Proofs.RuleLanguage
import DiceOdds.Proofs.MaximalMunch
import DiceOdds.Proofs.Layout
import DiceOdds.Proofs.FirstError
import DiceOdds.Proofs.Run
import DiceOdds.Proofs.PoolLimits
import DiceOdds.Proofs.Substitution
import DiceOdds.Proofs.Shadowing
import DiceOdds.Proofs.Turning
import DiceOdds.Proofs.UnmarkedTyping
import DiceOdds.Proofs.Unmarking
import DiceOdds.Proofs.Marks
import DiceOdds.Proofs.Regrouping
import DiceOdds.Proofs.SpaceJoin
import DiceOdds.Proofs.CommonType
import DiceOdds.Proofs.Dispatch
import DiceOdds.Proofs.Building
import DiceOdds.Proofs.FirstFault
import DiceOdds.Proofs.LeafPath
import DiceOdds.Proofs.RollMeaning
import DiceOdds.Proofs.ExpressionAlgebra
import DiceOdds.Proofs.ChainSplit
import DiceOdds.Proofs.ValueConversion
import DiceOdds.Proofs.PoolShares
import DiceOdds.Proofs.Canonical
import DiceOdds.Proofs.Exactness
import DiceOdds.Proofs.Widening
import DiceOdds.Proofs.OutcomeOrder
import DiceOdds.Proofs.RollCount
import DiceOdds.Proofs.SortedRoll
import DiceOdds.Proofs.NormalForm
import DiceOdds.Proofs.LeastFault
import DiceOdds.Proofs.OutcomeFaults
import DiceOdds.Proofs.PoolMirror
import DiceOdds.Proofs.JoinLaws
import DiceOdds.Proofs.SpaceBounds
import DiceOdds.Proofs.ValueOrder
import DiceOdds.Proofs.PoolDomain
