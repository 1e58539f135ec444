import TreeQuery.Proofs.Frontier.KeepFirst
import TreeQuery.Proofs.Navigation.Congruence
import TreeQuery.Proofs.Navigation.Evaluation
import TreeQuery.Proofs.Navigation.Found
import TreeQuery.Proofs.Navigation.Loops
import TreeQuery.Proofs.Navigation.Meaning
import TreeQuery.Proofs.Navigation.Nearest
import TreeQuery.Proofs.Navigation.Refinement
import TreeQuery.Proofs.Navigation.Steps
import TreeQuery.Proofs.Navigation.Termination
import TreeQuery.Proofs.Navigation.Unreached
import TreeQuery.Proofs.Path.Induction
import TreeQuery.Proofs.Path.Titles
import TreeQuery.Proofs.Predicate.Verdict
import TreeQuery.Proofs.Run.Alike
import TreeQuery.Proofs.Run.Congruence
import TreeQuery.Proofs.Run.Course
import TreeQuery.Proofs.Run.Finish
import TreeQuery.Proofs.Run.Outcome
import TreeQuery.Proofs.Run.Sequence
import TreeQuery.Proofs.Run.Telling
import TreeQuery.Proofs.Run.Yield
import TreeQuery.Proofs.Trace.Brackets
import TreeQuery.Proofs.Trace.Nesting
import TreeQuery.Proofs.Trace.Transcript
import TreeQuery.Proofs.Trace.Transparency
import TreeQuery.Proofs.Tree.Descent
import TreeQuery.Proofs.Tree.Grounded
import TreeQuery.Proofs.Tree.Preorder
import TreeQuery.Proofs.Tree.Walk
import TreeQuery.Session.Execute
import TreeQuery.Proofs.Forest.Links
import TreeQuery.Proofs.World.History
import TreeQuery.Proofs.Forest.Circles
import TreeQuery.Proofs.World.Circles
import TreeQuery.Proofs.Session.Planting
import TreeQuery.Proofs.Navigation.FirstFailure
import TreeQuery.Proofs.Path.Circles
import TreeQuery.Proofs.Path.Composition
import TreeQuery.Proofs.Navigation.Grouping
import TreeQuery.Proofs.Navigation.Distribution
import TreeQuery.Proofs.Session.Evaluation
import TreeQuery.Proofs.Session.Building
import TreeQuery.Proofs.Collections.Growth
import TreeQuery.Proofs.Session.Telling
import TreeQuery.Proofs.Session.Handing
import TreeQuery.Proofs.Session.Reached
import TreeQuery.Proofs.Collections.Handling
import TreeQuery.Proofs.Collections.Simulation
import TreeQuery.Proofs.Collections.Sharing
import TreeQuery.Proofs.Session.Separation
import TreeQuery.Proofs.Run.Renaming
import TreeQuery.Proofs.Navigation.Renaming
import TreeQuery.Proofs.Tree.Renaming
import TreeQuery.Proofs.World.Identifiers
import TreeQuery.Proofs.Frontier.Chronicle
import TreeQuery.Proofs.Collections.KeyedSet
import TreeQuery.Proofs.Session.Starting
import TreeQuery.Proofs.Predicate.Combination
import TreeQuery.Proofs.Run.Muted
import TreeQuery.Proofs.Navigation.Starts
import TreeQuery.Proofs.Navigation.Fusion
import TreeQuery.Proofs.Navigation.Appending
import TreeQuery.Proofs.Navigation.Exclusions
import TreeQuery.Proofs.Tree.Kinship
import TreeQuery.Proofs.Navigation.Relocations
import TreeQuery.Proofs.SyntaxTree.Ownership
import TreeQuery.Proofs.Run.Footprint
import TreeQuery.Proofs.Navigation.Footprint
import TreeQuery.Proofs.SyntaxTree.Confinement
import TreeQuery.Proofs.World.Walks
import TreeQuery.Proofs.Collections.Algebra
import TreeQuery.Proofs.Collections.LiveListing
import TreeQuery.Proofs.Trace.Restoration
import TreeQuery.Proofs.World.Refusal
import TreeQuery.Proofs.Predicate.Order
import TreeQuery.Proofs.Navigation.Deepening
