import Typings.Main
import Typings.Proofs.Expansion
import Typings.Proofs.Composition
import Typings.Proofs.FirstFault
import Typings.Proofs.Precedence
import Typings.Proofs.DeclaredNames
import Typings.Proofs.References
import Typings.Proofs.RoundTrip
import Typings.Proofs.Comments
import Typings.Proofs.ClosedOutput
import Typings.Proofs.WireGrammar
import Typings.Proofs.TextTrip
import Typings.Proofs.LosslessText
import Typings.Proofs.ClaimedNames
import Typings.Proofs.RegistryOrder
import Typings.Proofs.Delivery
import Typings.Proofs.WireNormalForm
import Typings.Proofs.UnseenTypes
import Typings.Proofs.Documentation
import Typings.Proofs.Paragraphs
import Typings.Proofs.CanonicalLayout
import Typings.Proofs.JoinedSources
import Typings.Proofs.BracketDepth
import Typings.Proofs.ExtendedKinds
import Typings.Proofs.Agreement
import Typings.Proofs.ExtendedTrip
import Typings.Proofs.DeclaredText
import Typings.Proofs.FaultWitness
import Typings.Proofs.OutlineReader
import Typings.Proofs.KindDefinitions
import Typings.Proofs.DerivedKinds
import Typings.Proofs.ErrorLocations
import Typings.Proofs.OverlongNumerals
import Typings.Proofs.Conclusions
import Typings.Access
import Typings.Proofs.NestedCalls
import Typings.Proofs.RegistryAccess
import Typings.Proofs.ScanErrors
