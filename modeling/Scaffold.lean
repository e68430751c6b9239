import Scaffold.Call.Audit
import Scaffold.CommandLine.Run
import Scaffold.Extract.Extractor
import Scaffold.Main
import Scaffold.Manifest
import Scaffold.Project.Build
import Scaffold.Project.Settings
import Scaffold.Project.Sync
import Scaffold.Proofs.Call.AuditCircles
import Scaffold.Proofs.Call.PostOrder
import Scaffold.Proofs.CommandLine.Endings
import Scaffold.Proofs.Extract.Acceptance
import Scaffold.Proofs.Extract.BlockLines
import Scaffold.Proofs.Extract.ParamRoundTrip
import Scaffold.Proofs.Extract.PropsRoundTrip
import Scaffold.Proofs.Extract.QuotedValue
import Scaffold.Proofs.Extract.RoundTrip
import Scaffold.Proofs.Generator.Declarations
import Scaffold.Proofs.Generator.Heads
import Scaffold.Proofs.Generator.Variables
import Scaffold.Proofs.Generator.Wrapped
import Scaffold.Proofs.Manifest.Editing
import Scaffold.Proofs.Manifest.Ordering
import Scaffold.Proofs.Manifest.Settling
import Scaffold.Proofs.Project.Batch
import Scaffold.Proofs.Project.Building
import Scaffold.Proofs.Project.Effects
import Scaffold.Proofs.Project.FirstSync
import Scaffold.Proofs.Project.Forgetting
import Scaffold.Proofs.Project.Preview
import Scaffold.Proofs.Registry.Directory
import Scaffold.Proofs.Registry.Naming
import Scaffold.Proofs.Registry.Readable
import Scaffold.Proofs.Sentinel.Bounds
import Scaffold.Proofs.Sentinel.Violations
import Scaffold.Proofs.Template.Blocks
import Scaffold.Proofs.Template.Container
import Scaffold.Proofs.Template.Nesting
import Scaffold.Proofs.Template.Strictness
import Scaffold.Registry.Directory
import Scaffold.Template.Variables
