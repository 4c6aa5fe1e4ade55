import SqlDialect.Node.Equality
import SqlDialect.Node.Statement
import SqlDialect.Query.Builder
import SqlDialect.Walk.Recorder
import SqlDialect.Validation
import SqlDialect.Proofs.Validation.Replacement
import SqlDialect.Proofs.Validation.RowLimit
import SqlDialect.Proofs.Node.Rebuild
import SqlDialect.Proofs.Validation.Rebuild
import SqlDialect.Proofs.Validation.TableFunction
import SqlDialect.Proofs.Validation.ClosedWorld
import SqlDialect.Proofs.Validation.FirstQuery
import SqlDialect.Proofs.Validation.Skeleton
import SqlDialect.Proofs.Validation.Part
import SqlDialect.Proofs.Walk.Inside
import SqlDialect.Proofs.Walk.Trail
import SqlDialect.Proofs.Walk.Recording
import SqlDialect.Proofs.Walk.Selection
import SqlDialect.Proofs.Walk.Preorder
import SqlDialect.Proofs.Validation.Log
import SqlDialect.Proofs.Validation.Join
import SqlDialect.Proofs.Validation.Construction
import SqlDialect.Proofs.Validation.Exchange
import SqlDialect.Proofs.Position.Merging
import SqlDialect.Proofs.Query.Steps
import SqlDialect.Proofs.Validation.Keyword
import SqlDialect.Proofs.Validation.Splice
import SqlDialect.Proofs.Identifier.Text
import SqlDialect.Proofs.Violation.Rendering
import SqlDialect.Proofs.Position.Reading
import SqlDialect.Proofs.TypeName.Lookup
import SqlDialect.Proofs.Validation.DeclaredType
