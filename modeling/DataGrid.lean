import DataGrid.Main
import DataGrid.Rehearsal.Directories
import DataGrid.Rehearsal.Engine
import DataGrid.Rehearsal.Stage
import DataGrid.Proofs.OpenFiles.Refinement
import DataGrid.Proofs.Merge.World
import DataGrid.Proofs.Merge.Effect
import DataGrid.Proofs.Conduct
import DataGrid.Proofs.Merge.Discipline
import DataGrid.Proofs.Merge.Destination
import DataGrid.Proofs.Merge.Diagnosis
import DataGrid.Proofs.Merge.Survival
import DataGrid.Proofs.Catalog.Atomicity
import DataGrid.Proofs.Catalog.Invariant
import DataGrid.Proofs.Catalog.Room
import DataGrid.Proofs.Merge.Agreement
import DataGrid.Proofs.Merge.Batch
import DataGrid.Proofs.Merge.Spelling
import DataGrid.Proofs.Merge.Comparison
import DataGrid.Proofs.Merge.Order
import DataGrid.Proofs.Cursor.Accounts
import DataGrid.Proofs.Cursor.Snapshots
import DataGrid.Proofs.Allowlist
import DataGrid.Proofs.Vault
import DataGrid.Proofs.OwnedPath
import DataGrid.Proofs.Merge.Confinement
import DataGrid.Proofs.Cursor.Delivery
import DataGrid.Proofs.Query.RoundTrip
import DataGrid.Proofs.Json.RoundTrip
import DataGrid.Proofs.Json.Defaults
import DataGrid.Proofs.Directory.Resumption
import DataGrid.Proofs.Merge.Orphan
import DataGrid.Proofs.Query.Patterns
import DataGrid.Proofs.Query.TreeCondition
import DataGrid.Proofs.Query.Meaning
import DataGrid.Proofs.Query.Conditions
import DataGrid.Proofs.Query.Keywords
import DataGrid.Proofs.Query.Accepted
import DataGrid.Proofs.Query.Spellings
import DataGrid.Proofs.Cursor.Paging
import DataGrid.Proofs.Query.Contents
import DataGrid.Proofs.Merge.Renaming
import DataGrid.Proofs.Registry
import DataGrid.Proofs.Query.Alternatives
import DataGrid.Proofs.Remote
import DataGrid.Proofs.Containment
import DataGrid.Proofs.OpenFiles.Numbers
