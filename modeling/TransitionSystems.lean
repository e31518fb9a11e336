import TransitionSystems.Main
import TransitionSystems.OrderedSet.Lemmas
import TransitionSystems.System.InPlace
import TransitionSystems.Proofs.InPlace
import TransitionSystems.Proofs.Guard.RoundTrip
import TransitionSystems.Proofs.Model.Rereading
import TransitionSystems.Proofs.Product.Asynchronous
import TransitionSystems.Proofs.Product.Synchronous
import TransitionSystems.Proofs.System.Merge
import TransitionSystems.Proofs.Guard.Names
import TransitionSystems.Proofs.Guard.Sharing
import TransitionSystems.Proofs.Automaton.Edges
import TransitionSystems.Proofs.Model.AutomatonRoundTrip
import TransitionSystems.Proofs.Product.Numbering
import TransitionSystems.Proofs.System.Graph
import TransitionSystems.Proofs.Product.SynchronousLaws
import TransitionSystems.Proofs.Product.AsynchronousLaws
import TransitionSystems.Proofs.System.InPlace
import TransitionSystems.Proofs.System.Extensionality
import TransitionSystems.Proofs.System.MergeLaws
import TransitionSystems.Proofs.Automaton.Coherence
import TransitionSystems.Proofs.Automaton.Construction
import TransitionSystems.Automaton.InPlace
import TransitionSystems.Proofs.Automaton.InPlace
import TransitionSystems.Proofs.FailedCalls
import TransitionSystems.Symbol.Descent
import TransitionSystems.Proofs.Symbol.Descent
import TransitionSystems.Proofs.System.Range
import TransitionSystems.Proofs.Product.Discovery
import TransitionSystems.Proofs.Product.Exhaustion
import TransitionSystems.Proofs.Guard.Lexemes
import TransitionSystems.Proofs.System.InsertionOrder
import TransitionSystems.Proofs.Guard.MaximalMunch
import TransitionSystems.Proofs.Guard.Beginnings
import TransitionSystems.Guard.Descent
import TransitionSystems.Proofs.Guard.Descent
import TransitionSystems.Proofs.Model.Annotations
import TransitionSystems.Model.FirstWord
import TransitionSystems.Proofs.Model.FirstWord
import TransitionSystems.Proofs.System.StateCalls
import TransitionSystems.Proofs.FirstError
import TransitionSystems.Proofs.Description
import TransitionSystems.Proofs.Path.Bounded
import TransitionSystems.OrderedSet.InPlace
import TransitionSystems.Guard.AtomSearch
import TransitionSystems.Text.Stream
import TransitionSystems.Proofs.Text.LineEnds
import TransitionSystems.Proofs.Guard.AtomSearch
import TransitionSystems.Proofs.OrderedSet.Algebra
import TransitionSystems.Proofs.OrderedSet.InPlace
import TransitionSystems.Proofs.Promela.Recovery
import TransitionSystems.Comparison
import TransitionSystems.Proofs.Comparison
import TransitionSystems.Proofs.Check
import TransitionSystems.Proofs.CommandLine.Options
