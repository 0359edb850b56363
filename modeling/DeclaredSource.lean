import DeclaredSource.Main
import DeclaredSource.Storage.Disk
import DeclaredSource.Proofs.Identifier
import DeclaredSource.Proofs.Declaration.Attributes
import DeclaredSource.Proofs.Declaration.Blame
import DeclaredSource.Proofs.Declaration.Strictness
import DeclaredSource.Proofs.Source.Layout
import DeclaredSource.Proofs.Source.Legible
import DeclaredSource.Proofs.Source.Readability.File
import DeclaredSource.Proofs.Rendering.Readability
import DeclaredSource.Proofs.Storage.Spelling
import DeclaredSource.Proofs.Storage.DiskOperations
import DeclaredSource.Proofs.Storage.Walks
import DeclaredSource.Proofs.Storage.NormalForm
import DeclaredSource.Proofs.Storage.LevelPath
import DeclaredSource.Proofs.Storage.Effects
import DeclaredSource.Proofs.Storage.StoreRuns
import DeclaredSource.Proofs.Storage.Removal
import DeclaredSource.Proofs.Storage.Writing
import DeclaredSource.Proofs.Storage.Mirror
import DeclaredSource.Proofs.Resource.Runs
import DeclaredSource.Proofs.Resource.FlatMap
import DeclaredSource.Proofs.Resource.Agreement
import DeclaredSource.Proofs.Declaration.Expressible
import DeclaredSource.Proofs.Declaration.Thinning
import DeclaredSource.Proofs.Storage.Staging
import DeclaredSource.Proofs.Storage.FailedWrites
import DeclaredSource.Proofs.Resource.Failures
import DeclaredSource.Proofs.Storage.Settling
import DeclaredSource.Proofs.Storage.SettlingRuns
import DeclaredSource.Proofs.Resource.Independence
import DeclaredSource.Proofs.CommandLine.Prediction
import DeclaredSource.Proofs.CommandLine.ExitStatus
import DeclaredSource.Proofs.CommandLine.Destruction
import DeclaredSource.Proofs.CommandLine.EmptyEnvironment
import DeclaredSource.Proofs.Rendering.Canonical
import DeclaredSource.Proofs.Rendering.FieldLists
import DeclaredSource.Proofs.Rendering.UnnamedLists
import DeclaredSource.Proofs.Text.LineDiff
import DeclaredSource.Proofs.Text.LineEnds
import DeclaredSource.Proofs.Declaration.Respelling
import DeclaredSource.Proofs.Declaration.Precedence
import DeclaredSource.Proofs.Declaration.Interchange
import DeclaredSource.Proofs.Storage.WriteEffect
import DeclaredSource.Proofs.Storage.Visits
import DeclaredSource.Proofs.Rendering.TypeReferences
import DeclaredSource.Proofs.Source.WriterRuns
import DeclaredSource.Proofs.Storage.CanonicalPaths
import DeclaredSource.Proofs.Declaration.Places
import DeclaredSource.Proofs.Identifier.Grammar
