import Parsing.Brackets
import Parsing.Main
import Parsing.Proofs.Alternatives
import Parsing.Proofs.Bounds
import Parsing.Proofs.Brackets
import Parsing.Proofs.Chains
import Parsing.Proofs.Commitment
import Parsing.Proofs.Counting
import Parsing.Proofs.Factoring
import Parsing.Proofs.Items
import Parsing.Proofs.Json.Acceptance
import Parsing.Proofs.Json.Failures
import Parsing.Proofs.Json.Numbers
import Parsing.Proofs.Json.RoundTrip
import Parsing.Proofs.Laws
import Parsing.Proofs.Locality
import Parsing.Proofs.Ordering
import Parsing.Proofs.Peg
import Parsing.Proofs.ReadBack
import Parsing.Proofs.Recursion
import Parsing.Proofs.Reuse
import Parsing.Proofs.Separators
import Parsing.Proofs.Spelling
import Parsing.Proofs.Suggestions
import Parsing.Proofs.Termination
import Parsing.Proofs.Wording
import Parsing.Script.Program
