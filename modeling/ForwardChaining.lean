import ForwardChaining.Main
import ForwardChaining.Proofs.Formula.Polarity
import ForwardChaining.Proofs.Session.Account
import ForwardChaining.Proofs.Session.Operation
import ForwardChaining.Proofs.Session.Moves
import ForwardChaining.Proofs.Session.Justification
import ForwardChaining.Proofs.Session.Pass
import ForwardChaining.Proofs.Session.Termination
import ForwardChaining.Proofs.Session.Consequences
import ForwardChaining.Proofs.Session.LeastModel
import ForwardChaining.Proofs.Formula.Grammar
import ForwardChaining.Proofs.Formula.Recognition
import ForwardChaining.Proofs.Token.Concatenation
import ForwardChaining.Proofs.Token.MaximalMunch
import ForwardChaining.Proofs.Formula.RoundTrip
import ForwardChaining.Proofs.Formula.Parentheses
import ForwardChaining.Proofs.Formula.Fragments
import ForwardChaining.Proofs.Formula.Rejection
import ForwardChaining.Proofs.Token.Spacing
import ForwardChaining.Proofs.Literal.Language
import ForwardChaining.Proofs.Session.Chaining
import ForwardChaining.Proofs.Session.Violations
import ForwardChaining.Proofs.Session.Interruption
import ForwardChaining.Proofs.Session.Reading
import ForwardChaining.Proofs.Session.Solving
import ForwardChaining.Proofs.Session.Deletion
import ForwardChaining.Proofs.Solution.Relevance
import ForwardChaining.Proofs.Rule.Format
import ForwardChaining.Proofs.Rule.RoundTrip
import ForwardChaining.Proofs.Solution.Phases
import ForwardChaining.Proofs.Session.Observation
import ForwardChaining.Proofs.Session.Bookkeeping
import ForwardChaining.Proofs.Solution.Verdict
import ForwardChaining.Proofs.Solution.Quotation
import ForwardChaining.Proofs.Solution.Lines
import ForwardChaining.Proofs.Json.Grammar
import ForwardChaining.Proofs.Json.Spelling
import ForwardChaining.Proofs.RuleBase.Skipping
import ForwardChaining.Proofs.RuleBase.Values
import ForwardChaining.Proofs.RuleBase.Members
import ForwardChaining.Proofs.RuleBase.RoundTrip
import ForwardChaining.Proofs.Facts.History
import ForwardChaining.Proofs.RuleBase.Labels
import ForwardChaining.Proofs.Solution.Conclusion
import ForwardChaining.Proofs.Solution.Positions
import ForwardChaining.Proofs.Formula.Monotonicity
import ForwardChaining.Proofs.RuleBase.Enumeration
import ForwardChaining.Proofs.Session.Readback
import ForwardChaining.Proofs.Formula.Cursor
import ForwardChaining.Proofs.Formula.Procedures
