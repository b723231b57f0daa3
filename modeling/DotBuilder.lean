import DotBuilder.Command.Perform
import DotBuilder.OrdMap.Lemmas
import DotBuilder.OrdMap.Firsts
import DotBuilder.Proofs.Action
import DotBuilder.Proofs.Refusal
import DotBuilder.Proofs.Effect
import DotBuilder.Proofs.Clusters.Family
import DotBuilder.Proofs.Clusters.Lineage
import DotBuilder.Proofs.Clusters.Hierarchy
import DotBuilder.Proofs.Clusters.Unfolding
import DotBuilder.Proofs.Clusters.Attaching
import DotBuilder.Proofs.Outline.Lines
import DotBuilder.Proofs.Outline.Reader
import DotBuilder.Proofs.Outline.Unambiguous
import DotBuilder.Proofs.Records
import DotBuilder.Proofs.References.Listing
import DotBuilder.Proofs.Accepted
import DotBuilder.Proofs.References.Bare
import DotBuilder.Proofs.References.Bound
import DotBuilder.Proofs.References.Missing
import DotBuilder.Proofs.References.Ends
import DotBuilder.Proofs.Clusters.Listed
import DotBuilder.Proofs.Clusters.Descent
import DotBuilder.Proofs.Cells.Basic
import DotBuilder.Proofs.Cells.Commands
import DotBuilder.Proofs.Cells.Made
import DotBuilder.Proofs.Cells.Owned
import DotBuilder.Proofs.Lint.Stored
import DotBuilder.Proofs.Lint.Noted
import DotBuilder.Proofs.Cells.Relabel
import DotBuilder.Proofs.Cells.Shown
import DotBuilder.Proofs.Locality
import DotBuilder.Proofs.Order.Relabel
import DotBuilder.Proofs.Order.Agree
import DotBuilder.Proofs.Order.Alike
import DotBuilder.Proofs.Order.Exchange
import DotBuilder.Proofs.Order.Interleaving
import DotBuilder.Proofs.Outline.Operator
import DotBuilder.Proofs.Cells.Slots
import DotBuilder.Proofs.Lint.Nested
import DotBuilder.Proofs.File.Directories
import DotBuilder.Proofs.File.Encoding
import DotBuilder.Proofs.File.Saving
import DotBuilder.Proofs.File.Store
import DotBuilder.Proofs.References.Joining
import DotBuilder.OrdMap.History
import DotBuilder.Proofs.References.History
import DotBuilder.Proofs.References.Removal
import DotBuilder.Proofs.Sets.Calls
import DotBuilder.Proofs.Text.Delimited
import DotBuilder.Proofs.Text.AttributeLists
import DotBuilder.Proofs.Text.EdgeStatements
import DotBuilder.Proofs.Html.Tables
import DotBuilder.Proofs.Html.Rows
import DotBuilder.Proofs.Html.Label
import DotBuilder.Proofs.Ports.Calls
import DotBuilder.Proofs.Number.Order
import DotBuilder.Proofs.Number.Rounding
import DotBuilder.Proofs.Number.Shortest
import DotBuilder.Proofs.Number.Reading
import DotBuilder.Proofs.Number.RoundTrip
import DotBuilder.Proofs.Number.Positional
import DotBuilder.Proofs.Text.Tokens
import DotBuilder.Proofs.Text.Literals
import DotBuilder.Proofs.Text.Diagnostics
