import Exemplar.File.FileSystem
import Exemplar.Main
import Exemplar.Proofs.CommandLine.Files
import Exemplar.Proofs.CommandLine.IdentityFilter
import Exemplar.Proofs.CommandLine.Lines
import Exemplar.Proofs.FieldKey
import Exemplar.Proofs.Registry.History
import Exemplar.Proofs.Registry.RawName
import Exemplar.Proofs.Sampler.Arguments
import Exemplar.Proofs.Sampler.Leaves
import Exemplar.Proofs.Sampler.Nesting
import Exemplar.Proofs.Sampler.Object
import Exemplar.Proofs.Sampler.Order
import Exemplar.Proofs.Sampler.Parameters
import Exemplar.Proofs.Sampler.Pruning
import Exemplar.Proofs.Sampler.ReadBack
import Exemplar.Proofs.Sampler.Shape
import Exemplar.Proofs.Sampler.Token
import Exemplar.Proofs.TypeTerm.Spacing
import Exemplar.Proofs.ClassTable.Borrowed
import Exemplar.Proofs.ClassTable.CanonicalText
import Exemplar.Proofs.ClassTable.FirstVisits
import Exemplar.Proofs.ClassTable.Links
import Exemplar.Proofs.ClassTable.RootTypes
import Exemplar.Proofs.Declaration.Format
import Exemplar.Proofs.Declaration.Agreement
import Exemplar.Proofs.Declaration.EmptyPointer
import Exemplar.Proofs.Declaration.RoundTrip
