import ContractCheck.Main
import ContractCheck.Container
import ContractCheck.Schedule.Timeline
import ContractCheck.Proofs.Schedule.Moves
import ContractCheck.Proofs.Schedule.Effects
import ContractCheck.Proofs.Compilation.Sparing
import ContractCheck.Proofs.Compilation.Staged
import ContractCheck.Proofs.Schedule.Edits
import ContractCheck.Proofs.Schedule.Overlap
import ContractCheck.Proofs.Schedule.Reopening
import ContractCheck.Proofs.Schedule.Snapshots
import ContractCheck.Proofs.Schedule.Clearing
import ContractCheck.Proofs.Schedule.Bookkeeping
import ContractCheck.Proofs.Text.Numerals
import ContractCheck.Proofs.Layout.Mirror
import ContractCheck.Proofs.Path.Resolving
import ContractCheck.Proofs.Diagnostic.Origin
import ContractCheck.Proofs.Import.Scanning
import ContractCheck.Proofs.Import.Cutting
import ContractCheck.Proofs.Import.Rescanning
import ContractCheck.Proofs.Import.Mirrored
import ContractCheck.Proofs.Text.Separators
import ContractCheck.Proofs.Path.Usable
import ContractCheck.Proofs.FileSystem.Standing
import ContractCheck.Proofs.Host.Following
import ContractCheck.Proofs.Diagnostic.Isolation
import ContractCheck.Proofs.Diagnostic.Printing
import ContractCheck.Proofs.Toolchain.Following
import ContractCheck.Proofs.Compilation.Gathering
import ContractCheck.Proofs.Layout.Naming
import ContractCheck.Proofs.Path.Names
import ContractCheck.Proofs.Schedule.Findings
import ContractCheck.Proofs.Compilation.Namesakes
import ContractCheck.Proofs.FileSystem.Alike
import ContractCheck.Proofs.Host.Logged
import ContractCheck.Proofs.Import.Layers
import ContractCheck.Proofs.Text.Counting
import ContractCheck.Proofs.Import.Needed
import ContractCheck.Proofs.Text.Encoding
import ContractCheck.Proofs.Toml.Scalars
import ContractCheck.Proofs.Toml.Values
import ContractCheck.Proofs.Toml.Documents
import ContractCheck.Proofs.Settings.Defaults
import ContractCheck.Proofs.Settings.Saved
import ContractCheck.Proofs.Settings.Search
import ContractCheck.Proofs.Settings.Accepted
import ContractCheck.Proofs.Settings.Changed
import ContractCheck.Proofs.FileSystem.Moving
import ContractCheck.Proofs.FileSystem.Rows
import ContractCheck.Proofs.Text.Transport
import ContractCheck.Proofs.Host.Sites
import ContractCheck.Proofs.Layout.Outputs
import ContractCheck.Proofs.Staging.Promoting
import ContractCheck.Proofs.Settings.Normal
import ContractCheck.Proofs.Settings.Environment
import ContractCheck.Proofs.Settings.Precedence
import ContractCheck.Proofs.Settings.Effective
import ContractCheck.Proofs.Schedule.Refusals
import ContractCheck.Proofs.Compilation.Delivery
import ContractCheck.Proofs.Host.Onward
import ContractCheck.Proofs.Toolchain.Installing
import ContractCheck.Proofs.Toolchain.Repeating
import ContractCheck.Proofs.Schedule.Turns
import ContractCheck.Proofs.Schedule.InForce
import ContractCheck.Proofs.Schedule.Quiet
import ContractCheck.Proofs.Schedule.Reports
import ContractCheck.Proofs.Settings.Broken
import ContractCheck.Proofs.Toolchain.Fetching
import ContractCheck.Proofs.Toolchain.Failing
import ContractCheck.Proofs.FileSystem.Receiving
import ContractCheck.Proofs.Layout.Copies
import ContractCheck.Proofs.Staging.Copying
import ContractCheck.Proofs.FileSystem.Trees
import ContractCheck.Proofs.Path.Inside
import ContractCheck.Proofs.FileSystem.Ways
import ContractCheck.Proofs.Host.Opening
import ContractCheck.Proofs.Host.Touching
import ContractCheck.Proofs.Layout.Stems
import ContractCheck.Proofs.Staging.Turns
import ContractCheck.Proofs.Staging.Artifacts
import ContractCheck.Proofs.Import.Rewriting
import ContractCheck.Proofs.Staging.Dependencies
import ContractCheck.Proofs.Layout.Trees
import ContractCheck.Proofs.Diagnostic.Locating
import ContractCheck.Proofs.Diagnostic.Lines
import ContractCheck.Proofs.Import.Unreadable
import ContractCheck.Proofs.Order.Stable
import ContractCheck.Proofs.Text.Lines
import ContractCheck.Proofs.Text.Kinds
import ContractCheck.Proofs.Console.Positions
import ContractCheck.Proofs.Lint.Findings
import ContractCheck.Proofs.Lint.Validating
import ContractCheck.Proofs.FileSystem.Rewriting
import ContractCheck.Proofs.Host.Planting
import ContractCheck.Proofs.Staging.Moving
import ContractCheck.Proofs.Staging.Reporting
import ContractCheck.Proofs.Console.Columns
import ContractCheck.Proofs.Log.Formatting
import ContractCheck.Proofs.Toolchain.Newest
import ContractCheck.Proofs.FileSystem.Ascending
import ContractCheck.Proofs.Settings.Written
import ContractCheck.Proofs.Value.Nested
