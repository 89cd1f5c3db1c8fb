import TripleJoin.Constraint.Comparison
import TripleJoin.Solution.Comparator
import TripleJoin.Query.Cluster
import TripleJoin.Query.Outline
import TripleJoin.Encoding
import TripleJoin.Simulation.Simulator
import TripleJoin.Proofs.Join.Inner
import TripleJoin.Proofs.Join.Outer
import TripleJoin.Proofs.Selection.Columns
import TripleJoin.Proofs.Term.Transitivity
import TripleJoin.Proofs.Graph.Refinement
import TripleJoin.Proofs.Query.Surroundings
import TripleJoin.Proofs.Engine.Faults
import TripleJoin.Proofs.Calls
import TripleJoin.Proofs.Matcher.Calls
import TripleJoin.Proofs.Matcher.Lenient
import TripleJoin.Proofs.Engine.FailFast
import TripleJoin.Proofs.Join.Independence
import TripleJoin.Proofs.Binding.Exchange
import TripleJoin.Proofs.Matcher.Ways
import TripleJoin.Proofs.Join.Reordering
import TripleJoin.Proofs.Join.Seeding
import TripleJoin.Proofs.Lockstep
import TripleJoin.Proofs.Matcher.Covering
import TripleJoin.Proofs.Engine.Covering
import TripleJoin.Proofs.Graph.Extension
import TripleJoin.Proofs.Matcher.Uniqueness
import TripleJoin.Proofs.Join.Distinctness
import TripleJoin.Proofs.Query.Reconstruction
import TripleJoin.Proofs.Alike
import TripleJoin.Proofs.Engine.Branches
import TripleJoin.Proofs.Query.Union
import TripleJoin.Proofs.Matcher.Restriction
import TripleJoin.Proofs.Query.Provenance
import TripleJoin.Proofs.Query.Loading
import TripleJoin.Proofs.Ensures
import TripleJoin.Proofs.Tree.Expansion
import TripleJoin.Proofs.Tree.Attachment
import TripleJoin.Proofs.Tree.Leaves
import TripleJoin.Proofs.Sorting
import TripleJoin.Proofs.Join.Reference
import TripleJoin.Proofs.Simulation.Generation
import TripleJoin.Proofs.Simulation.Soundness
import TripleJoin.Proofs.Sorting.Stability
import TripleJoin.Proofs.Selection.Ordering
import TripleJoin.Proofs.Query.Minting
import TripleJoin.Proofs.Join.Filtering
import TripleJoin.Proofs.Join.Prefixes
import TripleJoin.Proofs.Walk.Resumption
import TripleJoin.Proofs.Selection.Slicing
import TripleJoin.Proofs.Query.Emptiness
import TripleJoin.Proofs.Logs
import TripleJoin.Proofs.Matcher.Questions
import TripleJoin.Proofs.Query.Reading
import TripleJoin.Proofs.Engine.Questions
import TripleJoin.Proofs.Walk.Termination
import TripleJoin.Proofs.Pattern.Concatenation
import TripleJoin.Proofs.Term.Identity
import TripleJoin.Proofs.Constraint.Ranges
import TripleJoin.Proofs.Constraint.Verdicts
import TripleJoin.Proofs.Constraint.Numbers
import TripleJoin.Proofs.Selection.Parsing
import TripleJoin.Proofs.Term.Integers
import TripleJoin.Proofs.Join.Completion
import TripleJoin.Proofs.Tree.Exploration
import TripleJoin.Proofs.Engine.Warnings
