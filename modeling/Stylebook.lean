import Stylebook.Main
import Stylebook.Proofs.Analysis.Cohesion
import Stylebook.Proofs.Analysis.Coverage
import Stylebook.Proofs.Analysis.Occurrences
import Stylebook.Proofs.Analysis.Refinement
import Stylebook.Proofs.Analysis.Reordering
import Stylebook.Proofs.Analysis.Repetition
import Stylebook.Proofs.Analysis.Union
import Stylebook.Proofs.Cache.Balance
import Stylebook.Proofs.Cache.Recency
import Stylebook.Proofs.Cache.SingleFlight
import Stylebook.Proofs.Naming.Grammar
import Stylebook.Proofs.Naming.Resolution
import Stylebook.Proofs.Pipeline.Gate
import Stylebook.Proofs.Pipeline.Sharing
import Stylebook.Proofs.Selector.Agreement
import Stylebook.Proofs.Selector.Exact
import Stylebook.Proofs.Selector.Identifier
import Stylebook.Proofs.Selector.Profile
import Stylebook.Proofs.Selector.Splitting
import Stylebook.Proofs.Sheet.Limit
import Stylebook.Proofs.Sheet.Reading
import Stylebook.Proofs.Sheet.Weights
import Stylebook.Proofs.Stylesheet.Lowering
import Stylebook.Proofs.Tree.Traversal
import Stylebook.Proofs.Validation.Duplicates
import Stylebook.Proofs.Validation.Expansion
import Stylebook.Proofs.Validation.Findings
import Stylebook.Proofs.Validation.Values
