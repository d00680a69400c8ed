import RecordMapping.Engine.Storage
import RecordMapping.Proofs.Engine.Integer
import RecordMapping.Proofs.Field.Overlay
import RecordMapping.Proofs.Query.Compiling
import RecordMapping.Proofs.Query.Planning
import RecordMapping.Proofs.Query.Scoping
import RecordMapping.Proofs.Record.Readable
import RecordMapping.Proofs.Record.Reordering
import RecordMapping.Proofs.Record.RoundTrip
import RecordMapping.Proofs.Record.Soundness
import RecordMapping.Proofs.Schema.Affinity
import RecordMapping.Proofs.Schema.Convergence
import RecordMapping.Proofs.Schema.Course
import RecordMapping.Proofs.Schema.Naming
import RecordMapping.Proofs.Sql.Statement
import RecordMapping.Proofs.Table.Building
import RecordMapping.Proofs.Table.Coercion
import RecordMapping.Proofs.Table.Failures
import RecordMapping.Proofs.Table.Freshness
import RecordMapping.Proofs.Table.Growth
import RecordMapping.Proofs.Table.Identifier
import RecordMapping.Proofs.Table.Nulls
import RecordMapping.Proofs.Table.Parallel
import RecordMapping.Proofs.Table.Provision
import RecordMapping.Proofs.Table.Refusal
import RecordMapping.Proofs.Table.Related
import RecordMapping.Proofs.Table.Writing
import RecordMapping.Session.Playback
import RecordMapping.Table.Gateway
