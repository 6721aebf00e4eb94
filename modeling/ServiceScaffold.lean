import ServiceScaffold.Main
import ServiceScaffold.Proofs.CommandLine.Templates
import ServiceScaffold.Proofs.Lint.MultipleRoles
import ServiceScaffold.Proofs.Naming.PluralRule
import ServiceScaffold.Proofs.Naming.Words
import ServiceScaffold.Proofs.Project.Confinement
import ServiceScaffold.Proofs.Project.ReadBack
import ServiceScaffold.Proofs.Project.Repetition
import ServiceScaffold.Proofs.Project.TypeNames
import ServiceScaffold.Proofs.ScalarType.Mapping
import ServiceScaffold.Proofs.Schema.Classification
import ServiceScaffold.Proofs.Schema.CommentLayout
import ServiceScaffold.Proofs.Schema.Encoding
import ServiceScaffold.Proofs.Schema.IntegerLiterals
import ServiceScaffold.Proofs.Schema.NearestComment
import ServiceScaffold.Proofs.Schema.TrailingBlock
import ServiceScaffold.Proofs.Schema.TypeTexts
import ServiceScaffold.Proofs.Service.Aliases
import ServiceScaffold.Proofs.Service.Encoding
import ServiceScaffold.Proofs.Service.Lowering
import ServiceScaffold.Proofs.Service.OperationNames
import ServiceScaffold.Proofs.Template.Atomicity
import ServiceScaffold.Proofs.Template.Fallback
import ServiceScaffold.Proofs.Template.Origin
import ServiceScaffold.Proofs.Template.ReadCounts
import ServiceScaffold.Proofs.Template.Roots
import ServiceScaffold.Proofs.Template.Shadowing
import ServiceScaffold.Proofs.Template.StandIn
import ServiceScaffold.Proofs.Template.Transparency
