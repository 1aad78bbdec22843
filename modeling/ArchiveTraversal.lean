import ArchiveTraversal.Text.Utf8
import ArchiveTraversal.Text.Quoted
import ArchiveTraversal.Text.Blank
import ArchiveTraversal.Text.Alphanumeric
import ArchiveTraversal.SystemError
import ArchiveTraversal.Path
import ArchiveTraversal.Status
import ArchiveTraversal.Words
import ArchiveTraversal.Options
import ArchiveTraversal.Failure
import ArchiveTraversal.Member
import ArchiveTraversal.Safety
import ArchiveTraversal.FileTree.Basic
import ArchiveTraversal.FileTree.View
import ArchiveTraversal.FileTree.Lookup
import ArchiveTraversal.FileTree.Change
import ArchiveTraversal.Decoder.Script
import ArchiveTraversal.Decoder.Handle
import ArchiveTraversal.Event
import ArchiveTraversal.Host
import ArchiveTraversal.Session
import ArchiveTraversal.Reader
import ArchiveTraversal.Chunks
import ArchiveTraversal.Sink
import ArchiveTraversal.Copying
import ArchiveTraversal.Program
import ArchiveTraversal.Listing
import ArchiveTraversal.Unpack
import ArchiveTraversal.Number.Double
import ArchiveTraversal.Number.Shortest
import ArchiveTraversal.Number.Unsigned
import ArchiveTraversal.Json.Basic
import ArchiveTraversal.Json.Text
import ArchiveTraversal.Json.Decode
import ArchiveTraversal.Snapshot
import ArchiveTraversal.CommandLine.Arguments
import ArchiveTraversal.CommandLine.Pattern.Switches
import ArchiveTraversal.CommandLine.Pattern.Atom
import ArchiveTraversal.CommandLine.Pattern.Class
import ArchiveTraversal.CommandLine.Pattern.Form
import ArchiveTraversal.CommandLine.LogFilter
import ArchiveTraversal.CommandLine.Run
import ArchiveTraversal.Main
import ArchiveTraversal.Proofs.FileTree.Descent
import ArchiveTraversal.Proofs.FileTree.Edit
import ArchiveTraversal.Proofs.FileTree.Below
import ArchiveTraversal.Proofs.FileTree.Removal
import ArchiveTraversal.Proofs.Host
import ArchiveTraversal.Proofs.Unpack.Containment
import ArchiveTraversal.Proofs.Decoder.Custody
import ArchiveTraversal.Proofs.Decoder.Runs
import ArchiveTraversal.Proofs.Decoder.Data
import ArchiveTraversal.Proofs.Unpack.Placement
import ArchiveTraversal.Proofs.Unpack.Preparation
import ArchiveTraversal.Proofs.Unpack.Result
import ArchiveTraversal.Proofs.FileTree.Fresh
import ArchiveTraversal.Proofs.Decoder.Cut
import ArchiveTraversal.Proofs.Journal
import ArchiveTraversal.Proofs.Unpack.Interruption
import ArchiveTraversal.Proofs.Journal.Growth
import ArchiveTraversal.Proofs.Session.Standstill
import ArchiveTraversal.Proofs.Session.LockStep
import ArchiveTraversal.Proofs.Unpack.Visits
import ArchiveTraversal.Proofs.Unpack.Delivery
import ArchiveTraversal.Proofs.Unpack.Transfers
import ArchiveTraversal.Proofs.Unpack.Limit
import ArchiveTraversal.Proofs.Listing
import ArchiveTraversal.Proofs.Unpack.Totals
import ArchiveTraversal.Proofs.Unpack.Accounts
import ArchiveTraversal.Proofs.Unpack.Heeding
import ArchiveTraversal.Proofs.Unpack.WindingUp
import ArchiveTraversal.Proofs.Unpack.Declining
import ArchiveTraversal.Proofs.Unpack.Cancellation
import ArchiveTraversal.Proofs.CommandLine.Reports
import ArchiveTraversal.Proofs.Unpack.PassedOver
import ArchiveTraversal.Proofs.Unpack.Omission
import ArchiveTraversal.Proofs.Decoder.Yield
import ArchiveTraversal.Proofs.Sink
import ArchiveTraversal.Proofs.Session.Arrival
import ArchiveTraversal.Proofs.Unpack.Pouring
import ArchiveTraversal.Proofs.Unpack.Recut
import ArchiveTraversal.Proofs.Options
import ArchiveTraversal.Proofs.Journal.Capacity
import ArchiveTraversal.Proofs.ChunkSize
import ArchiveTraversal.Proofs.FileTree.Content
import ArchiveTraversal.Proofs.Unpack.Progress
import ArchiveTraversal.Proofs.Unpack.Consumers
import ArchiveTraversal.Proofs.Session.Effects
import ArchiveTraversal.Proofs.Session.CurrentEntry
import ArchiveTraversal.Proofs.Session.Traversal
import ArchiveTraversal.Proofs.Session.Twins
import ArchiveTraversal.Proofs.Reader.Reuse
import ArchiveTraversal.Proofs.FileTree.Again
import ArchiveTraversal.Proofs.Unpack.Reprise
import ArchiveTraversal.Proofs.Unpack.Repetition
import ArchiveTraversal.Proofs.Path.Components
import ArchiveTraversal.Proofs.Safety
import ArchiveTraversal.Proofs.Session.Responses
import ArchiveTraversal.Proofs.Reader.Opening
import ArchiveTraversal.Proofs.Session.Copying
import ArchiveTraversal.Proofs.CommandLine.Printing
import ArchiveTraversal.Proofs.Listing.Exactness
import ArchiveTraversal.Proofs.Decoder.Bounds
import ArchiveTraversal.Proofs.Journal.Account
import ArchiveTraversal.Proofs.Journal.Chapters
import ArchiveTraversal.Proofs.Json.Decode
import ArchiveTraversal.Proofs.Snapshot
import ArchiveTraversal.Proofs.Text.Utf8
import ArchiveTraversal.Proofs.CommandLine.PlainListing
import ArchiveTraversal.Proofs.Path.Prefixes
import ArchiveTraversal.Proofs.FileTree.Open
import ArchiveTraversal.Proofs.Unpack.Clearing
