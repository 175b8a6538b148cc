import CombinatorJson.Proofs.Alternation
import CombinatorJson.Proofs.Attempted
import CombinatorJson.Proofs.Displacement
import CombinatorJson.Proofs.Endless
import CombinatorJson.Proofs.Grammar.Compact
import CombinatorJson.Proofs.Grammar.Contexts
import CombinatorJson.Proofs.Grammar.Delimiting
import CombinatorJson.Proofs.Grammar.Literal
import CombinatorJson.Proofs.Grammar.Nesting
import CombinatorJson.Proofs.Grammar.Objects
import CombinatorJson.Proofs.Grammar.Spelling
import CombinatorJson.Proofs.Interchange
import CombinatorJson.Proofs.Labels
import CombinatorJson.Proofs.Positions
import CombinatorJson.Proofs.Recognition
import CombinatorJson.Proofs.Serialization
import CombinatorJson.Proofs.Typed.Agreement
import CombinatorJson.Proofs.Typed.Integer
import CombinatorJson.Proofs.Typed.Located
import CombinatorJson.Proofs.Typed.Paths
import CombinatorJson.Proofs.Typed.Reread
import CombinatorJson.Proofs.Typed.Single
