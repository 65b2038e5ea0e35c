import Remedy.Text.LineIndex
import Remedy.Text.Encoding
import Remedy.Source.Unit
import Remedy.Java.Parse
import Remedy.Java.Cursor
import Remedy.Symbols.Table
import Remedy.Pattern.PathFilter
import Remedy.Findings.Ingest
import Remedy.Codemod.BuiltIn
import Remedy.Codemod.Script
import Remedy.Change.FileResult
import Remedy.Diff.Unified
import Remedy.Run.Pipeline
import Remedy.Run.WriteBack
import Remedy.Config
import Remedy.Command.Perform
import Remedy.Main
import Remedy.Proofs.Order
import Remedy.Proofs.Runs
import Remedy.Proofs.Text.Breaks
import Remedy.Proofs.Text.Cut
import Remedy.Proofs.Text.Detection
import Remedy.Proofs.Text.Encoding
import Remedy.Proofs.Text.Guarded
import Remedy.Proofs.Text.LineMap
import Remedy.Proofs.Text.Lines
import Remedy.Proofs.Text.Pieces
import Remedy.Proofs.Text.Place
import Remedy.Proofs.Text.Positions
import Remedy.Proofs.Text.Repair
import Remedy.Proofs.Text.Sweeps
import Remedy.Proofs.Text.Utf16
import Remedy.Proofs.Text.Without
import Remedy.Proofs.Java.Compounds
import Remedy.Proofs.Java.Covering
import Remedy.Proofs.Java.Derivation
import Remedy.Proofs.Java.Layout
import Remedy.Proofs.Java.Parsed
import Remedy.Proofs.Java.Readings
import Remedy.Proofs.Java.Subtree
import Remedy.Proofs.Java.Tokens
import Remedy.Proofs.Java.Tour
import Remedy.Proofs.Java.Walk
import Remedy.Proofs.Symbols.Growth
import Remedy.Proofs.Symbols.Innermost
import Remedy.Proofs.Symbols.LocalTypes
import Remedy.Proofs.Symbols.Members
import Remedy.Proofs.Symbols.Rearranged
import Remedy.Proofs.Symbols.Recorded
import Remedy.Proofs.Symbols.References
import Remedy.Proofs.Symbols.Scope
import Remedy.Proofs.Symbols.Spelling
import Remedy.Proofs.Symbols.Uses
import Remedy.Proofs.Pattern.Readable
import Remedy.Proofs.Pattern.Scopes
import Remedy.Proofs.Pattern.Slashes
import Remedy.Proofs.Pattern.Suffixes
import Remedy.Proofs.Path.Canonical
import Remedy.Proofs.Path.Joined
import Remedy.Proofs.Path.Names
import Remedy.Proofs.Files.Discovered
import Remedy.Proofs.Files.Located
import Remedy.Proofs.Files.Operations
import Remedy.Proofs.Files.Places
import Remedy.Proofs.Files.SourceFiles
import Remedy.Proofs.Json.Decoded
import Remedy.Proofs.Findings.Coordinates
import Remedy.Proofs.Findings.Deduplicate
import Remedy.Proofs.Findings.Documents
import Remedy.Proofs.Findings.Fields
import Remedy.Proofs.Findings.Identity
import Remedy.Proofs.Findings.Kept
import Remedy.Proofs.Findings.Normalized
import Remedy.Proofs.Findings.Placed
import Remedy.Proofs.Findings.Regions
import Remedy.Proofs.Findings.Spellings
import Remedy.Proofs.Findings.StoredBytes
import Remedy.Proofs.Codemod.Aims
import Remedy.Proofs.Codemod.Elements
import Remedy.Proofs.Codemod.Removed
import Remedy.Proofs.Codemod.Scans
import Remedy.Proofs.Diff.Hunks
import Remedy.Proofs.Diff.Replay
import Remedy.Proofs.Diff.Seen
import Remedy.Proofs.Change.Applied
import Remedy.Proofs.Change.Bids
import Remedy.Proofs.Change.Candidates
import Remedy.Proofs.Change.Choice
import Remedy.Proofs.Change.FirstLines
import Remedy.Proofs.Change.Insertions
import Remedy.Proofs.Change.Isolation
import Remedy.Proofs.Change.Ledger
import Remedy.Proofs.Change.Permuted
import Remedy.Proofs.Change.Queries
import Remedy.Proofs.Change.Rank
import Remedy.Proofs.Change.Replay
import Remedy.Proofs.Change.Settle
import Remedy.Proofs.Change.Sites
import Remedy.Proofs.Change.Styles
import Remedy.Proofs.Change.Trace
import Remedy.Proofs.Change.Written
import Remedy.Proofs.Run.Cancellation
import Remedy.Proofs.Run.Certainty
import Remedy.Proofs.Run.Reports
import Remedy.Proofs.Run.Sourced
import Remedy.Proofs.Run.Visibility
import Remedy.Proofs.Run.Whole
import Remedy.Proofs.Run.WriteBack
import Remedy.Proofs.Command.Fix
